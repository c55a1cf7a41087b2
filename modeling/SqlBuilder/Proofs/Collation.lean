import Mathlib.Data.List.Lex
import Mathlib.Data.String.Basic
import Mathlib.Order.Monotone.Basic
import SqlBuilder.Proofs.Chronology

/-!
# Texts of dates in order

A database that keeps dates as texts compares them as texts. The text of a moment
is a list of numbers with a fixed width each and a fixed mark before each, and at
exact midnight the list ends with the date. Numbers of one width sort like their
digits, so such texts sort like the lists of numbers that they show, and those
sort like the moments.

* `paddedDigits_lt` — numbers of one width;
* `Numeral.write`, `Numeral.write_lt` — texts of numbers at given places;
* `Moment.shown`, `Moment.shown_le`, `Moment.shown_eq_iff` — the numbers that a
  text shows;
* `Moment.sqlText_le_iff`, `Moment.sqlText_eq_iff` — texts and what they show;
* `Moment.date_texts_collate` — texts of moments and of instants sort like these.

The year has to have four digits: a sign changes the width, and a minus sorts the
years before the first in reverse.
-/

namespace SqlBuilder

/-! ## Numbers of a fixed width -/

theorem digitChar_lt {n n' : Nat} (h : n < n') (h' : n' < 10) :
    Nat.digitChar n < Nat.digitChar n' := by
  have hall : ∀ k' < 10, ∀ k < k', Nat.digitChar k < Nat.digitChar k' := by decide
  exact hall n' h' n h

/-- Texts of one length are compared before what stands behind them. -/
theorem append_lt_append {as bs xs ys : List Char} (hlength : as.length = bs.length)
    (h : as < bs) : as ++ xs < bs ++ ys := by
  induction as generalizing bs with
  | nil =>
    obtain rfl := List.eq_nil_of_length_eq_zero hlength.symm
    exact absurd h (List.not_lt_nil [])
  | cons a as ih =>
    cases bs with
    | nil => cases hlength
    | cons b bs =>
      rw [List.cons_append, List.cons_append, List.cons_lt_cons_iff]
      rcases List.cons_lt_cons_iff.mp h with hab | ⟨rfl, has⟩
      · exact .inl hab
      · exact .inr ⟨rfl, ih (Nat.succ.inj hlength) has⟩

section PaddedDigits

variable {width n n' : Nat}

theorem toList_paddedDigits (width n : Nat) : (paddedDigits width n).toList =
    List.replicate (width - (Nat.toDigits 10 n).length) '0' ++ Nat.toDigits 10 n :=
  String.toList_ofList

/-- The last digit of a number stands behind the others. -/
theorem toList_paddedDigits_succ (hwidth : 0 < width) (n : Nat) :
    (paddedDigits (width + 1) n).toList
      = (paddedDigits width (n / 10)).toList ++ [Nat.digitChar (n % 10)] := by
  rw [toList_paddedDigits, toList_paddedDigits, Nat.toDigits_eq_if (by decide)]
  split
  · next hsmall =>
    -- a single digit, behind zeros alone
    have hzero : n / 10 = 0 := Nat.div_eq_of_lt hsmall
    have hlast : n % 10 = n := Nat.mod_eq_of_lt hsmall
    rw [hzero, hlast, Nat.toDigits_of_lt_base (by decide : 0 < 10)]
    obtain ⟨w, rfl⟩ : ∃ w, width = w + 1 := ⟨width - 1, by omega⟩
    simp [List.replicate_succ']
  · simp

theorem length_paddedDigits (hwidth : 0 < width) (h : n < 10 ^ width) :
    (paddedDigits width n).toList.length = width := by
  have hdigits : (Nat.toDigits 10 n).length ≤ width :=
    (Nat.length_toDigits_le_iff (by decide) hwidth).mpr h
  rw [toList_paddedDigits, List.length_append, List.length_replicate]
  omega

/-- **Numbers of one width sort like numbers.** -/
theorem paddedDigits_lt (hwidth : 0 < width) (h : n < n') (h' : n' < 10 ^ width) :
    (paddedDigits width n).toList < (paddedDigits width n').toList := by
  induction width, hwidth using Nat.le_induction generalizing n n' with
  | base =>
    have hn : ∀ k < 10, (paddedDigits 1 k).toList = [Nat.digitChar k] := by decide
    rw [hn n (by omega), hn n' (by omega), List.cons_lt_cons_iff]
    exact .inl (digitChar_lt h (by omega))
  | succ width hwidth ih =>
    have hfront : n' / 10 < 10 ^ width := by
      rw [Nat.pow_succ] at h'
      omega
    rw [toList_paddedDigits_succ hwidth, toList_paddedDigits_succ hwidth]
    rcases Nat.lt_or_ge (n / 10) (n' / 10) with hlt | hge
    · -- the digits in front decide
      refine append_lt_append ?_ (ih hlt hfront)
      rw [length_paddedDigits hwidth (hlt.trans hfront), length_paddedDigits hwidth hfront]
    · have hsame : n / 10 = n' / 10 := by omega
      rw [hsame]
      refine List.append_left_lt (List.cons_lt_cons_iff.mpr (.inl ?_))
      exact digitChar_lt (by omega) (by omega)

end PaddedDigits

/-! ## Texts of numbers -/

/-- A number in a text: what stands in front of it, and its width. -/
structure Numeral where
  mark : List Char
  width : Nat

namespace Numeral

/-- The text of some numbers, as far as there are places for them. -/
def write : List Numeral → List Nat → List Char
  | p :: ps, n :: ns => p.mark ++ ((paddedDigits p.width n).toList ++ write ps ns)
  | _, _ => []

/-- Numbers that are not too wide for their places. -/
inductive Fit : List Numeral → List Nat → Prop
  | nil {ps : List Numeral} : Fit ps []
  | cons {p : Numeral} {ps : List Numeral} {n : Nat} {ns : List Nat} (hwidth : 0 < p.width)
    (hn : n < 10 ^ p.width) (hns : Fit ps ns) : Fit (p :: ps) (n :: ns)

theorem Fit.twoDigits {mark : List Char} {ps : List Numeral} {n : Nat} {ns : List Nat}
    (hn : n < 100) (hns : Fit ps ns) : Fit (⟨mark, 2⟩ :: ps) (n :: ns) := by
  refine .cons (Nat.succ_pos 1) ?_ hns
  show n < 10 ^ 2
  omega

/-- A text with a number in it comes after the empty text. -/
theorem nil_lt_write {p : Numeral} {ps : List Numeral} {n : Nat} {ns : List Nat}
    (h : Fit (p :: ps) (n :: ns)) : [] < write (p :: ps) (n :: ns) := by
  cases h with
  | cons hwidth hn hns =>
    have hdigits : (paddedDigits p.width n).toList ≠ [] := by
      rw [← List.length_pos_iff, length_paddedDigits hwidth hn]
      exact hwidth
    have hwrite : write (p :: ps) (n :: ns) ≠ [] := by simp [write, hdigits]
    obtain ⟨c, cs, hcs⟩ := List.exists_cons_of_ne_nil hwrite
    rw [hcs]
    exact List.nil_lt_cons c cs

/-- **Texts of numbers sort like the numbers**, one number after the other. A list
that goes on comes after the list that ends. -/
theorem write_lt {ps : List Numeral} {ns ms : List Nat} (hns : Fit ps ns) (hms : Fit ps ms)
    (h : ns < ms) : write ps ns < write ps ms := by
  induction hns generalizing ms with
  | nil =>
    cases hms with
    | nil => exact absurd h (List.not_lt_nil [])
    | cons hwidth hm hms => exact nil_lt_write (.cons hwidth hm hms)
  | @cons p ps n ns hwidth hn hns ih =>
    cases hms with
    | nil => exact absurd h (List.not_lt_nil _)
    | @cons _ _ m ms _ hm hms =>
      -- the marks are the same, and the first numbers that differ decide
      refine List.append_left_lt ?_
      rcases List.cons_lt_cons_iff.mp h with hlt | ⟨rfl, hrest⟩
      · refine append_lt_append ?_ (paddedDigits_lt hwidth hlt hm)
        rw [length_paddedDigits hwidth hn, length_paddedDigits hwidth hm]
      · exact List.append_left_lt (ih hms hrest)

theorem write_strictMonoOn (ps : List Numeral) : StrictMonoOn (write ps) { ns | Fit ps ns } :=
  fun _ hns _ hms h => write_lt hns hms h

end Numeral

/-! ## What a text shows -/

/-- Lists are compared by the first numbers that differ. -/
theorem cons_le_cons_iff {n m : Nat} {ns ms : List Nat} :
    n :: ns ≤ m :: ms ↔ n < m ∨ n = m ∧ ns ≤ ms := by
  rw [le_iff_lt_or_eq, le_iff_lt_or_eq, List.cons_lt_cons_iff, List.cons.injEq, and_or_left,
    or_assoc]

theorem nil_le (ns : List Nat) : [] ≤ ns := not_lt.mp (List.not_lt_nil ns)

namespace TimeOfDay

variable {t t' : TimeOfDay}

theorem isMidnight_iff : t.isMidnight = true ↔ t = .midnight := by
  cases t
  simp [isMidnight, midnight, and_assoc]

/-- The numbers in the text of a time of day: none at midnight. -/
def shown (t : TimeOfDay) : List Nat :=
  if t.isMidnight then [] else [t.hour, t.minute, t.shownSecond]

theorem shown_midnight : shown .midnight = [] := rfl

theorem shown_of_ne (h : t ≠ .midnight) : t.shown = [t.hour, t.minute, t.shownSecond] :=
  if_neg (mt isMidnight_iff.mp h)

theorem midnight_le (t : TimeOfDay) : .midnight ≤ t := by
  simp only [le_iff, midnight]
  omega

/-- Only a second 59 can be shown as the next one. -/
theorem shownSecond_le (h : t.second < t'.second ∨
    t.second = t'.second ∧ t.nanosecond ≤ t'.nanosecond) : t.shownSecond ≤ t'.shownSecond := by
  have hsecond' := t'.second_lt
  have hparts := t.nanosecond_lt
  unfold shownSecond
  omega

theorem shownSecond_lt (t : TimeOfDay) : t.shownSecond < 61 := by
  have hsecond := t.second_lt
  have hparts := t.nanosecond_lt
  unfold shownSecond
  omega

/-- Later times show the same numbers or greater ones. -/
theorem shown_le (h : t ≤ t') : t.shown ≤ t'.shown := by
  by_cases hmidnight : t = .midnight
  · rw [hmidnight, shown_midnight]
    exact nil_le _
  · -- nothing but midnight comes before midnight
    have hmidnight' : t' ≠ .midnight := by
      rintro rfl
      exact hmidnight (le_antisymm h (midnight_le t))
    rw [shown_of_ne hmidnight, shown_of_ne hmidnight']
    simp only [cons_le_cons_iff]
    rcases le_iff.mp h with hhour | ⟨hhour, hminute | ⟨hminute, hsecond⟩⟩
    · exact .inl hhour
    · exact .inr ⟨hhour, .inl hminute⟩
    · refine .inr ⟨hhour, .inr ⟨hminute, ?_⟩⟩
      rcases (shownSecond_le hsecond).lt_or_eq with hlt | heq
      · exact .inl hlt
      · exact .inr ⟨heq, nil_le _⟩

/-- Times show the same numbers if they look alike on a clock in whole seconds,
and are both midnight or neither. -/
theorem shown_eq_iff : t.shown = t'.shown ↔
    (t.hour = t'.hour ∧ t.minute = t'.minute ∧ t.shownSecond = t'.shownSecond) ∧
      (t = .midnight ↔ t' = .midnight) := by
  -- a list without numbers is shown at midnight only, even where the clock is at zero
  by_cases hmidnight : t = .midnight
  · by_cases hmidnight' : t' = .midnight
    · simp [hmidnight, hmidnight']
    · simp [hmidnight, hmidnight', shown_midnight, shown_of_ne hmidnight']
  · by_cases hmidnight' : t' = .midnight
    · simp [hmidnight, hmidnight', shown_midnight, shown_of_ne hmidnight]
    · simp [hmidnight, hmidnight', shown_of_ne hmidnight, shown_of_ne hmidnight']

end TimeOfDay

/-- Whether a year is written with four digits and no sign. -/
def Date.HasPlainYear (d : Date) : Prop := 0 ≤ d.year ∧ d.year ≤ 9999

namespace Moment

variable {m m' : Moment}

/-- The numbers in the text of a moment. -/
def shown (m : Moment) : List Nat :=
  m.date.year.toNat :: m.date.month :: m.date.day :: m.time.shown

/-- The places of these numbers. -/
def places : List Numeral :=
  [⟨[], 4⟩, ⟨['-'], 2⟩, ⟨['-'], 2⟩, ⟨[' '], 2⟩, ⟨[':'], 2⟩, ⟨[':'], 2⟩]

/-- The text of a moment is the text of the numbers that it shows. -/
theorem toList_sqlText (h : m.date.HasPlainYear) :
    m.sqlText.toList = Numeral.write places m.shown := by
  obtain ⟨hlow, hhigh⟩ := h
  have hyear : yearText m.date.year = paddedDigits 4 m.date.year.toNat := by
    rw [yearText, if_neg (by omega), if_pos hhigh]
    congr 1
    omega
  unfold sqlText shown TimeOfDay.shown Date.text TimeOfDay.clockText
  rw [hyear]
  -- with the date alone, the places of the time are left over
  split <;> simp [places, Numeral.write]

theorem fit_shown (h : m.date.HasPlainYear) : Numeral.Fit places m.shown := by
  obtain ⟨hlow, hhigh⟩ := h
  have hmonth := m.date.month_bounds
  have hday := m.date.day_bounds
  have hdays : daysInMonth m.date.year m.date.month ≤ 31 := by
    unfold daysInMonth
    repeat' split
    all_goals decide
  have hhour := m.time.hour_lt
  have hminute := m.time.minute_lt
  have hsecond := m.time.shownSecond_lt
  have hyear : m.date.year.toNat < 10 ^ 4 := by omega
  refine .cons (Nat.succ_pos 3) hyear (.twoDigits (by omega) (.twoDigits (by omega) ?_))
  unfold TimeOfDay.shown
  split
  · exact .nil
  · exact .twoDigits (by omega) (.twoDigits (by omega) (.twoDigits (by omega) .nil))

/-- Later moments show the same numbers or greater ones. -/
theorem shown_le (hyear : m.date.HasPlainYear) (h : m ≤ m') : m.shown ≤ m'.shown := by
  have hlow := hyear.1
  unfold shown
  simp only [cons_le_cons_iff]
  -- a year from 0 on is shown as it is, so that what decides between the dates
  -- decides between the numbers
  rcases le_iff.mp h with hdate | ⟨hdate, htime⟩
  · rcases Date.lt_iff.mp hdate with hyear | ⟨hyear, hmonth | ⟨hmonth, hday⟩⟩
    · exact .inl (by omega)
    · exact .inr ⟨by rw [hyear], .inl hmonth⟩
    · exact .inr ⟨by rw [hyear], .inr ⟨hmonth, .inl hday⟩⟩
  · rw [hdate]
    exact .inr ⟨rfl, .inr ⟨rfl, .inr ⟨rfl, TimeOfDay.shown_le htime⟩⟩⟩

/-- Moments of the same date that look alike on a clock in whole seconds, and are
both at exact midnight or neither. A nanosecond part of a whole second or more
is that of a leap second, which such a clock shows as the second after 59. -/
structure ShownAlike (m m' : Moment) : Prop where
  date : m.date = m'.date
  hour : m.time.hour = m'.time.hour
  minute : m.time.minute = m'.time.minute
  second : m.time.second + m.time.nanosecond / 10 ^ 9
    = m'.time.second + m'.time.nanosecond / 10 ^ 9
  midnight : m.time = .midnight ↔ m'.time = .midnight

theorem shown_eq_iff (h : m.date.HasPlainYear) (h' : m'.date.HasPlainYear) :
    m.shown = m'.shown ↔ m.ShownAlike m' := by
  have hlow := h.1
  have hlow' := h'.1
  unfold shown
  simp only [List.cons.injEq, TimeOfDay.shown_eq_iff]
  constructor
  · rintro ⟨hyear, hmonth, hday, ⟨hhour, hminute, hsecond⟩, hmidnight⟩
    have hyear' : m.date.year = m'.date.year := by omega
    refine ⟨Date.key_injective ?_, hhour, hminute, hsecond, hmidnight⟩
    rw [Date.key, Date.key, hyear', hmonth, hday]
  · rintro ⟨hdate, hhour, hminute, hsecond, hmidnight⟩
    rw [hdate]
    exact ⟨rfl, rfl, rfl, ⟨hhour, hminute, hsecond⟩, hmidnight⟩

/-! ## Texts in order -/

/-- **Texts sort like what they show.** -/
theorem sqlText_le_iff (h : m.date.HasPlainYear) (h' : m'.date.HasPlainYear) :
    m.sqlText ≤ m'.sqlText ↔ m.shown ≤ m'.shown := by
  rw [String.le_iff_toList_le, toList_sqlText h, toList_sqlText h']
  exact (Numeral.write_strictMonoOn places).le_iff_le (fit_shown h) (fit_shown h')

/-- Texts are the same for what is shown alike, and only for that. -/
theorem sqlText_eq_iff (h : m.date.HasPlainYear) (h' : m'.date.HasPlainYear) :
    m.sqlText = m'.sqlText ↔ m.ShownAlike m' := by
  rw [← shown_eq_iff h h', ← String.toList_inj, toList_sqlText h, toList_sqlText h']
  exact (Numeral.write_strictMonoOn places).eq_iff_eq (fit_shown h) (fit_shown h')

/-- Texts of moments sort like the moments, as far as the texts show them on some
clock: a later moment has no smaller text, and the texts are the same for the
moments that the clock shows alike, and only for them. -/
structure Collates (clock : Moment → Moment) (text : Moment → String) : Prop where
  le : ∀ m m', (clock m).date.HasPlainYear → (clock m').date.HasPlainYear → m ≤ m' →
    text m ≤ text m'
  eq_iff : ∀ m m', (clock m).date.HasPlainYear → (clock m').date.HasPlainYear →
    (text m = text m' ↔ (clock m).ShownAlike (clock m'))

theorem collates_sqlText {clock : Moment → Moment} (hclock : Monotone clock) :
    Collates clock fun m => (clock m).sqlText where
  le _ _ h h' hle := (sqlText_le_iff h h').mpr (shown_le h (hclock hle))
  eq_iff _ _ h h' := sqlText_eq_iff h h'

/-- The clock of the instants in a statement. -/
def statementClock (clock : LocalClock) (useUtc : Bool) (m : Moment) : Moment :=
  if useUtc then m else clock m

theorem statementClock_mono {clock : LocalClock} (hclock : Monotone clock) (useUtc : Bool) :
    Monotone (statementClock clock useUtc) := by
  cases useUtc with
  | true => exact monotone_id
  | false => exact hclock

theorem instantText_eq (clock : LocalClock) (useUtc : Bool) :
    instantText clock useUtc = fun m => (statementClock clock useUtc m).sqlText := by
  funext m
  cases useUtc with
  | true => rfl
  | false => rfl

/-- **Texts of dates sort like the dates**, with sub-second parts and leap seconds:
those of moments on a clock, and those of instants, in universal time and on any
local clock that keeps the order of moments. -/
theorem date_texts_collate {clock : LocalClock} (hclock : Monotone clock) :
    Collates id sqlText ∧
      ∀ useUtc : Bool, Collates (statementClock clock useUtc) (instantText clock useUtc) := by
  refine ⟨collates_sqlText monotone_id, fun useUtc => ?_⟩
  rw [instantText_eq]
  exact collates_sqlText (statementClock_mono hclock useUtc)

/-- The parts of a leap second have one text, before that of the midnight after
it, and so they do in universal time and eleven hours ahead of it. Five hours and
a half ahead, an instant that is not at midnight is shown by its date alone. -/
theorem date_texts_collate_leap_second :
    let date : Date := { year := 2016, month := 12, day := 31 }
    let leap : Moment :=
      ⟨date, { hour := 23, minute := 59, second := 59, nanosecond := 1000000000 }⟩
    let late : Moment :=
      ⟨date, { hour := 23, minute := 59, second := 59, nanosecond := 1999999999 }⟩
    let next : Moment := ⟨{ year := 2017, month := 1, day := 1 }, .midnight⟩
    let evening : Moment := ⟨date, { hour := 18, minute := 30, second := 0, nanosecond := 0 }⟩
    Monotone (LocalClock.ahead 330) ∧ Monotone (LocalClock.ahead 660) ∧
      leap.sqlText = "2016-12-31 23:59:60" ∧
      (leap.sqlText = late.sqlText ∧ late.sqlText ≤ next.sqlText) ∧
      leap.instantText (.ahead 660) true ≤ next.instantText (.ahead 660) true ∧
      leap.instantText (.ahead 660) false ≤ next.instantText (.ahead 660) false ∧
      evening.instantText (.ahead 330) false = "2017-01-01" ∧
      evening.instantText (.ahead 330) false ≤ leap.instantText (.ahead 330) false := by
  intro date leap late next evening
  have hahead := LocalClock.ahead_mono 330
  have hfar := LocalClock.ahead_mono 660
  obtain ⟨hwall, hinstant⟩ := date_texts_collate hahead
  have hinstant' := (date_texts_collate hfar).2
  have hyear : date.HasPlainYear := ⟨by decide, by decide⟩
  have hyear' : next.date.HasPlainYear := ⟨by decide, by decide⟩
  have halike : leap.ShownAlike late := ⟨rfl, rfl, rfl, by decide, by decide⟩
  have hevening : evening ≤ leap := le_iff.mpr (.inr ⟨rfl, TimeOfDay.le_iff.mpr (by decide)⟩)
  have hleap : leap ≤ next := le_iff.mpr (.inl (Date.lt_iff.mpr (.inl (by decide))))
  have hlate : late ≤ next := le_iff.mpr (.inl (Date.lt_iff.mpr (.inl (by decide))))
  have hsame : leap.sqlText = late.sqlText := (hwall.eq_iff leap late hyear hyear).mpr halike
  refine ⟨hahead, hfar, by decide, ⟨hsame, hwall.le late next hyear hyear' hlate⟩,
    (hinstant' true).le leap next hyear hyear' hleap,
    (hinstant' false).le leap next ?_ ?_ hleap, by decide,
    (hinstant false).le evening leap ?_ ?_ hevening⟩
  -- on the clocks that are ahead, the years are those of the day after
  all_goals exact ⟨by decide, by decide⟩

end Moment

end SqlBuilder
