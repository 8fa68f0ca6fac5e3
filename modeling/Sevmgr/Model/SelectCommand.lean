import Sevmgr.Model.DateTimeReader

/-!
The command `SELECT` of the interactive program, up to the date-time that it asks for.

* `daysBeforeMonth`, `daysBeforeYear`, `Date.dayNumber`: the days of the calendar in their order.
  Two dates have different numbers.
* `PTime`: a date and a time of day, as Boost takes a date-time apart.
* `ptime`: the date-time composed of a date and any duration. `PTime.dateTime_injective` says that a
  date-time has one date and one time of day.
* `selectReading`, `lUserDateTime`: what is read for the command, and the date-time asked for.
-/

namespace Sevmgr

open DateTimeReader

/-! ### Days -/

/-- The days of a year before the first one of a month. -/
def daysBeforeMonth (year : ℕ) : ℕ → ℕ
  | 0 | 1 => 0
  | month + 2 => daysBeforeMonth year (month + 1) + endOfMonthDay year (month + 1)

/-- The days before a year, from 1 January of the year 1 on. -/
def daysBeforeYear (year : ℕ) : ℕ :=
  365 * (year - 1) + (year - 1) / 4 - (year - 1) / 100 + (year - 1) / 400

/-- The days before a date. -/
def Date.dayNumber (date : Date) : ℕ :=
  daysBeforeYear date.year + (daysBeforeMonth date.year date.month + (date.day - 1))

lemma monotone_daysBeforeMonth (year : ℕ) : Monotone (daysBeforeMonth year) := by
  refine monotone_nat_of_le_succ fun month => ?_
  cases month with
  | zero => exact le_rfl
  | succ month => exact Nat.le_add_right _ _

/-- All months but the second have a fixed number of days. -/
lemma daysBeforeMonth_thirteen (year : ℕ) :
    daysBeforeMonth year 13 = endOfMonthDay year 2 + 337 := by
  have h31 : ∀ m ∈ [1, 3, 5, 7, 8, 10, 12], endOfMonthDay year m = 31 := by simp [endOfMonthDay]
  have h30 : ∀ m ∈ [4, 6, 9, 11], endOfMonthDay year m = 30 := by simp [endOfMonthDay]
  simp only [List.mem_cons, List.not_mem_nil, or_false, forall_eq_or_imp, forall_eq] at h31 h30
  simp only [daysBeforeMonth, h31, h30, Nat.reduceAdd]
  omega

/-- The twelve months make up a year. -/
lemma daysBeforeYear_succ {year : ℕ} (h : 1 ≤ year) :
    daysBeforeYear (year + 1) = daysBeforeYear year + daysBeforeMonth year 13 := by
  obtain ⟨n, rfl⟩ : ∃ n, year = n + 1 := ⟨year - 1, by omega⟩
  have hcenturies : n / 100 ≤ n / 4 := Nat.div_le_div_left (by decide) (by decide)
  have h400 : 400 ∣ n + 1 → 100 ∣ n + 1 := (show 100 ∣ 400 by decide).trans
  have h100 : 100 ∣ n + 1 → 4 ∣ n + 1 := (show 4 ∣ 100 by decide).trans
  rw [daysBeforeMonth_thirteen, daysBeforeYear, daysBeforeYear, endOfMonthDay, if_pos rfl]
  simp only [Nat.add_sub_cancel, Nat.succ_div, ← Nat.dvd_iff_mod_eq_zero, ne_eq]
  generalize n / 4 = a at *
  generalize n / 100 = b at *
  generalize n / 400 = c
  by_cases hd : 400 ∣ n + 1
  · simp only [hd, h400 hd, h100 (h400 hd), if_true, or_true, and_true]
    omega
  · by_cases hc : 100 ∣ n + 1
    · simp only [hd, hc, h100 hc, if_true, if_false, not_true, or_false, and_false]
      omega
    · by_cases hl : 4 ∣ n + 1
      · simp only [hd, hc, hl, if_true, if_false, not_false_eq_true, or_false, and_true]
        omega
      · simp only [hd, hc, hl, if_false, false_and]
        omega

lemma monotone_daysBeforeYear : Monotone daysBeforeYear := by
  refine monotone_nat_of_le_succ fun year => ?_
  cases year with
  | zero => exact le_rfl
  | succ year =>
      have hyear := daysBeforeYear_succ (show 1 ≤ year + 1 by omega)
      omega

/-- A number lies in one of the blocks into which an increasing sequence cuts the numbers, at one
place of it. -/
lemma block_unique {f : ℕ → ℕ} (hf : Monotone f) {n n' r r' : ℕ} (hr : f n + r < f (n + 1))
    (hr' : f n' + r' < f (n' + 1)) (h : f n + r = f n' + r') : n = n' ∧ r = r' := by
  obtain rfl : n = n' := by
    by_contra hne
    refine Set.disjoint_left.mp (hf.pairwise_disjoint_on_Ico_succ hne)
      (show f n + r ∈ Set.Ico (f n) (f (n + 1)) from ⟨Nat.le_add_right _ _, hr⟩) ?_
    rw [h]
    exact ⟨Nat.le_add_right _ _, hr'⟩
  exact ⟨rfl, by omega⟩

namespace Date

variable (date : Date)

lemma dayOfMonth_lt : daysBeforeMonth date.year date.month + (date.day - 1)
    < daysBeforeMonth date.year (date.month + 1) := by
  obtain ⟨-, ⟨hm, -⟩, hd, hlast⟩ := date.valid
  obtain ⟨m, hm⟩ : ∃ m, date.month = m + 1 := ⟨date.month - 1, by omega⟩
  rw [hm] at hlast ⊢
  rw [daysBeforeMonth]
  omega

lemma dayOfYear_lt : daysBeforeYear date.year
      + (daysBeforeMonth date.year date.month + (date.day - 1))
    < daysBeforeYear (date.year + 1) := by
  obtain ⟨⟨hy, -⟩, ⟨-, hm⟩, -⟩ := date.valid
  have hmonths := monotone_daysBeforeMonth date.year (show date.month + 1 ≤ 13 by omega)
  calc daysBeforeYear date.year + (daysBeforeMonth date.year date.month + (date.day - 1))
      < daysBeforeYear date.year + daysBeforeMonth date.year (date.month + 1) :=
        Nat.add_lt_add_left date.dayOfMonth_lt _
    _ ≤ daysBeforeYear date.year + daysBeforeMonth date.year 13 := Nat.add_le_add_left hmonths _
    _ = daysBeforeYear (date.year + 1) := (daysBeforeYear_succ (by omega)).symm

/-- **Two dates are not the same day.** -/
theorem dayNumber_injective : Function.Injective dayNumber := by
  intro d d' h
  obtain ⟨hyear, hrest⟩ := block_unique monotone_daysBeforeYear d.dayOfYear_lt d'.dayOfYear_lt h
  have hmonth' := d'.dayOfMonth_lt
  rw [← hyear] at hrest hmonth'
  obtain ⟨hmonth, hday⟩ :=
    block_unique (monotone_daysBeforeMonth d.year) d.dayOfMonth_lt hmonth' hrest
  have hd := d.valid.2.2.1
  have hd' := d'.valid.2.2.1
  exact Date.ext hyear hmonth (by omega)

end Date

example : (Date.dayNumber ⟨1970, 1, 1, by decide⟩, Date.dayNumber ⟨2012, 3, 1, by decide⟩)
    = (719162, 734562) := by decide

/-! ### Date-times -/

/-- The microseconds of a day. -/
def microsecondsOfDay : ℤ := 86400000000

/-- `boost::posix_time::ptime` as it is taken apart by `date()` and `time_of_day()`. -/
@[ext] structure PTime where
  date : Date
  timeOfDay : Duration
  valid : 0 ≤ timeOfDay ∧ timeOfDay < microsecondsOfDay
deriving DecidableEq

/-- `boost::posix_time::ptime (date, duration)`: the duration is added to midnight of the date. -/
def ptime (date : Date) (duration : Duration) : DateTime :=
  microsecondsOfDay * date.dayNumber + duration

namespace PTime

variable (p : PTime)

/-- The date-time, counted from the start of the year 1. -/
def dateTime : DateTime := ptime p.date p.timeOfDay

/-- The hour of the day. -/
def hours : ℕ := (p.timeOfDay / 3600000000).toNat

/-- The minute of the hour. -/
def minutes : ℕ := (p.timeOfDay / 60000000 % 60).toNat

/-- The second of the minute. -/
def seconds : ℕ := (p.timeOfDay / 1000000 % 60).toNat

/-- The microseconds of the second. -/
def subSecond : ℤ := p.timeOfDay % 1000000

lemma bounds : (0 : ℤ) ≤ p.timeOfDay ∧ (86400000000 : ℤ) > p.timeOfDay := p.valid

lemma hours_lt : p.hours < 24 := by
  have hbounds := p.bounds
  rw [hours]
  omega

lemma minutes_lt : p.minutes < 60 := by
  rw [minutes]
  omega

lemma seconds_lt : p.seconds < 60 := by
  rw [seconds]
  omega

/-- The time of day is put together from its parts. -/
lemma timeOfDay_eq : 3600000000 * (p.hours : ℤ) + 60000000 * (p.minutes : ℤ)
    + 1000000 * (p.seconds : ℤ) + p.subSecond = p.timeOfDay := by
  have hbounds := p.bounds
  rw [hours, minutes, seconds, subSecond]
  omega

/-- The parts of a time of day are the hours, minutes and seconds that it was put together from. -/
lemma parts_of_timeOfDay {h m s : ℕ} (hm : m < 60) (hs : s < 60)
    (htime : p.timeOfDay = 3600000000 * (h : ℤ) + 60000000 * (m : ℤ) + 1000000 * (s : ℤ)) :
    p.hours = h ∧ p.minutes = m ∧ p.seconds = s := by
  rw [hours, minutes, seconds, htime]
  omega

/-- **A date-time has one date and one time of day.** -/
theorem dateTime_injective : Function.Injective dateTime := by
  intro p p' h
  have hsum : (86400000000 : ℤ) * p.date.dayNumber + p.timeOfDay
      = 86400000000 * p'.date.dayNumber + p'.timeOfDay := h
  have hbounds := p.bounds
  have hbounds' := p'.bounds
  have hday : p.date.dayNumber = p'.date.dayNumber := by omega
  rw [hday] at hsum
  exact PTime.ext (Date.dayNumber_injective hday) (add_left_cancel hsum)

end PTime

/-! ### The command -/

/-- What `parseEventDateTime` leaves of the date and the time of day of the current date-time, on
the tokens of a line. -/
def selectReading (B : Boost) (lTokenListByReadline : List Text)
    (lCurrentInteractiveDateTime : PTime) : Reading :=
  parseEventDateTime B (extractTokenListForDateTime lTokenListByReadline)
    lCurrentInteractiveDateTime.date lCurrentInteractiveDateTime.timeOfDay

/-- `ptime (lUserDate, lUserTime)`: the date-time that is passed to `select`. -/
def lUserDateTime (B : Boost) (lTokenListByReadline : List Text)
    (lCurrentInteractiveDateTime : PTime) : DateTime :=
  ptime (selectReading B lTokenListByReadline lCurrentInteractiveDateTime).date
    (selectReading B lTokenListByReadline lCurrentInteractiveDateTime).time

end Sevmgr
