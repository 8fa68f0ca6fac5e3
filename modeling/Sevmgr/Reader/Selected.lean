import Sevmgr.Model.SelectCommand
import Sevmgr.Model.SampleBoost
import Sevmgr.Reader.Rejection

/-!
The date-time that `SELECT` asks for.

The date and the time of day are taken apart into six numbers, those that were typed are replaced,
and the date and the time are put together from the six. Nothing checks the numbers of the time, and
what is less than a second is in none of the six.

* `typedTime_eq`: the time that is put together, over a time of day.
* `exit_ne_of_not_understood`: no reading of what is not understood ends without a complaint.
* `AsksForTyped`: what the user may expect of the date-time.
* `lUserDateTime_of_not_found`: what is asked for by a line that is no date-time.
* `asksForTyped_iff`: when it is met.
-/

namespace Sevmgr

open DateTimeReader

variable {B : Boost} {date : Date} {time : Duration} {line : List Text}
  {year month day hrs mins secs : Text}

/-! ### The time put together -/

/-- The three numbers into which a time of day is taken apart fit their type. -/
lemma toUnsignedShort_hours (p : PTime) : toUnsignedShort (hours p.timeOfDay) = p.hours := by
  have hbounds := p.bounds
  rw [toUnsignedShort, hours, PTime.hours, Int.tdiv_eq_ediv_of_nonneg hbounds.1]
  omega

lemma toUnsignedShort_minutes (p : PTime) : toUnsignedShort (minutes p.timeOfDay) = p.minutes := by
  have hbounds := p.bounds
  rw [toUnsignedShort, minutes, PTime.minutes, Int.tdiv_eq_ediv_of_nonneg hbounds.1,
    Int.tmod_eq_emod_of_nonneg (Int.ediv_nonneg hbounds.1 (by decide))]
  omega

lemma toUnsignedShort_seconds (p : PTime) : toUnsignedShort (seconds p.timeOfDay) = p.seconds := by
  have hbounds := p.bounds
  rw [toUnsignedShort, seconds, PTime.seconds, Int.tdiv_eq_ediv_of_nonneg hbounds.1,
    Int.tmod_eq_emod_of_nonneg (Int.ediv_nonneg hbounds.1 (by decide))]
  omega

/-- The time that is put together of what was typed over a time of day. -/
lemma typedTime_eq (p : PTime) (hrs mins secs : Text) :
    typedTime p.timeOfDay hrs mins secs = 3600000000 * (typedOr p.hours hrs : ℤ)
      + 60000000 * (typedOr p.minutes mins : ℤ) + 1000000 * (typedOr p.seconds secs : ℤ) := by
  rw [typedTime, toUnsignedShort_hours, toUnsignedShort_minutes, toUnsignedShort_seconds]

/-- With nothing typed, what is less than a second is dropped. -/
lemma typedTime_nil (p : PTime) : typedTime p.timeOfDay [] [] [] + p.subSecond = p.timeOfDay := by
  rw [typedTime_eq]
  exact p.timeOfDay_eq

/-! ### Readings -/

/-- What is not understood is not read without a complaint. -/
theorem exit_ne_of_not_understood (h : DateTimeTokens year month day hrs mins secs)
    (hnot : ¬ Understood date year month day mins) :
    (parseEventDateTime B [year, month, day, hrs, mins, secs] date time).exit
      ≠ .returned none := by
  have hcases := readDate_cases (B := B) h date
  cases hm : typedMonth date month with
  | month m =>
      by_cases hdate : IsDate (typedYear date year) m (typedOr date.day day)
      · have hword : IsWord mins := by
          by_contra hword
          exact hnot ⟨m, hm, hdate, hword⟩
        rw [parse_of_word h hword (readDate_of_isDate h hm hdate)]
        simp [Exit.complain]
      · obtain ⟨x, hx⟩ := readDate_of_not_isDate (B := B) h hm hdate
        rw [parse_of_error hx]
        simp
  | noName =>
      rw [hm] at hcases
      obtain ⟨s, hword, hname, hread⟩ := hcases
      obtain ⟨x, hx, hne⟩ := recomposeDate_error_of_noName (B := B) date
        (typedYear_lt date h.year) (typedDay_lt h date) hword hname
      rw [hx] at hread
      rw [parse_of_error hread]
      exact hne
  | tooGreat =>
      rw [hm] at hcases
      obtain ⟨c, hread⟩ := hcases
      rw [parse_of_error hread]
      simp
  | zero =>
      rw [hm] at hcases
      rw [parse_of_error hcases]
      simp

/-- What is understood is read into a date of the calendar and a time. -/
lemma selectReading_of_month (h : extractTokenListForDateTime line = [year, month, day, hrs, mins,
      secs]) (htoks : DateTimeTokens year month day hrs mins secs) {now : PTime} {m : ℕ}
    (hm : typedMonth now.date month = .month m)
    (hdate : IsDate (typedYear now.date year) m (typedOr now.date.day day))
    (hword : ¬ IsWord mins) :
    selectReading B line now
      = ⟨.returned none, ⟨_, _, _, hdate⟩, typedTime now.timeOfDay hrs mins secs⟩ := by
  rw [selectReading, h]
  exact parse_of_digits htoks (htoks.minutes.resolve_right hword)
    (readDate_of_isDate htoks hm hdate) _

/-! ### What is asked for -/

/-- All six tokens are empty. -/
def NothingTyped (year month day hrs mins secs : Text) : Prop :=
  [year, month, day, hrs, mins, secs] = List.replicate 6 []

/-- The date-time has the numbers that were typed, and those of the current one where none was;
with nothing typed it is the current one. -/
structure AsksForTyped (B : Boost) (line : List Text) (now : PTime)
    (year month day hrs mins secs : Text) : Prop where
  fields : ∃ p : PTime, p.dateTime = lUserDateTime B line now ∧
    p.date.year = typedYear now.date year ∧ typedMonth now.date month = .month p.date.month ∧
    p.date.day = typedOr now.date.day day ∧ p.hours = typedOr now.hours hrs ∧
    p.minutes = typedOr now.minutes mins ∧ p.seconds = typedOr now.seconds secs
  unchanged : NothingTyped year month day hrs mins secs → lUserDateTime B line now = now.dateTime

/-- However the date-time is taken apart into a date and a time of day, it has these numbers. -/
theorem AsksForTyped.fields_of_dateTime {now p : PTime}
    (h : AsksForTyped B line now year month day hrs mins secs)
    (hp : p.dateTime = lUserDateTime B line now) :
    p.date.year = typedYear now.date year ∧ typedMonth now.date month = .month p.date.month ∧
      p.date.day = typedOr now.date.day day ∧ p.hours = typedOr now.hours hrs ∧
      p.minutes = typedOr now.minutes mins ∧ p.seconds = typedOr now.seconds secs := by
  obtain ⟨p', hp', hfields⟩ := h.fields
  obtain rfl : p = p' := PTime.dateTime_injective (hp.trans hp'.symm)
  exact hfields

/-- The numbers of the time are numbers of a time of day. -/
def TimeInDay (now : PTime) (hrs mins secs : Text) : Prop :=
  typedOr now.hours hrs < 24 ∧ typedOr now.minutes mins < 60 ∧ typedOr now.seconds secs < 60

instance (year month day hrs mins secs : Text) :
    Decidable (NothingTyped year month day hrs mins secs) :=
  inferInstanceAs (Decidable ([year, month, day, hrs, mins, secs] = List.replicate 6 []))

instance (now : PTime) (hrs mins secs : Text) : Decidable (TimeInDay now hrs mins secs) :=
  inferInstanceAs (Decidable (_ ∧ _ ∧ _))

/-- Nothing typed gives the current date-time to the second. -/
lemma lUserDateTime_of_nothingTyped {now : PTime} {m : ℕ}
    (hm : typedMonth now.date month = .month m)
    (hdate : IsDate (typedYear now.date year) m (typedOr now.date.day day))
    (hread : selectReading B line now
      = ⟨.returned none, ⟨_, _, _, hdate⟩, typedTime now.timeOfDay hrs mins secs⟩)
    (hnothing : NothingTyped year month day hrs mins secs) :
    lUserDateTime B line now + now.subSecond = now.dateTime := by
  obtain ⟨rfl, rfl, rfl, rfl, rfl, rfl⟩ : year = [] ∧ month = [] ∧ day = [] ∧ hrs = [] ∧ mins = [] ∧
      secs = [] := by simpa [NothingTyped] using hnothing
  obtain rfl : now.date.month = m := by simpa [typedMonth] using hm
  calc lUserDateTime B line now + now.subSecond
      = microsecondsOfDay * now.date.dayNumber + typedTime now.timeOfDay [] [] []
          + now.subSecond := by
        rw [lUserDateTime, hread]
        rfl
    _ = microsecondsOfDay * now.date.dayNumber
          + (typedTime now.timeOfDay [] [] [] + now.subSecond) := add_assoc _ _ _
    _ = now.dateTime := by
        rw [typedTime_nil]
        rfl

/-- **A line that is no date-time asks for the current one**, to the second. -/
theorem lUserDateTime_of_not_found {now : PTime}
    (h : lRegEx.search (DateTimeReader.toString line) = none) :
    lUserDateTime B line now + now.subSecond = now.dateTime := by
  have hline : extractTokenListForDateTime line = [[], [], [], [], [], []] := by
    rw [extractTokenListForDateTime, extractTokenList, h]
    rfl
  have htoks := dateTimeTokens_of_extract_six hline
  have hm : typedMonth now.date [] = .month now.date.month := rfl
  have hdate : IsDate (typedYear now.date []) now.date.month (typedOr now.date.day []) :=
    now.date.valid
  have hread := selectReading_of_month (B := B) hline htoks hm hdate fun hword => hword.ne_nil rfl
  exact lUserDateTime_of_nothingTyped hm hdate hread rfl

example : lUserDateTime (sampleBoost true) ["today".toList]
      ⟨⟨2011, 1, 1, by decide⟩, 3723500000, by decide⟩
    = PTime.dateTime ⟨⟨2011, 1, 1, by decide⟩, 3723000000, by decide⟩ := by decide +kernel

/-- The date-time put together of six numbers is taken apart into them where those of the time are
numbers of a time of day. -/
lemma asksForTyped_of_month {now : PTime} {m : ℕ}
    (hm : typedMonth now.date month = .month m)
    (hdate : IsDate (typedYear now.date year) m (typedOr now.date.day day))
    (hread : selectReading B line now
      = ⟨.returned none, ⟨_, _, _, hdate⟩, typedTime now.timeOfDay hrs mins secs⟩) :
    AsksForTyped B line now year month day hrs mins secs ↔ TimeInDay now hrs mins secs ∧
      (NothingTyped year month day hrs mins secs → now.subSecond = 0) := by
  constructor
  · rintro ⟨⟨p, -, -, -, -, hhrs, hmins, hsecs⟩, hunchanged⟩
    refine ⟨⟨?_, ?_, ?_⟩, fun hnothing => ?_⟩
    · rw [← hhrs]
      exact p.hours_lt
    · rw [← hmins]
      exact p.minutes_lt
    · rw [← hsecs]
      exact p.seconds_lt
    · have hsum := lUserDateTime_of_nothingTyped hm hdate hread hnothing
      rw [hunchanged hnothing] at hsum
      exact add_eq_left.mp hsum
  · rintro ⟨⟨hhrs, hmins, hsecs⟩, hsub⟩
    have htime := typedTime_eq now hrs mins secs
    have hvalid : (0 : ℤ) ≤ typedTime now.timeOfDay hrs mins secs ∧
        (86400000000 : ℤ) > typedTime now.timeOfDay hrs mins secs := by
      rw [htime]
      omega
    refine ⟨⟨⟨⟨_, m, _, hdate⟩, typedTime now.timeOfDay hrs mins secs, hvalid⟩, ?_, rfl, hm, rfl,
      PTime.parts_of_timeOfDay _ hmins hsecs htime⟩, fun hnothing => ?_⟩
    · rw [lUserDateTime, hread]
      rfl
    · have hsum := lUserDateTime_of_nothingTyped hm hdate hread hnothing
      rwa [hsub hnothing, add_zero] at hsum

/-- **When `SELECT` asks for what was typed**: what is understood must be the numbers of a time of
day, and where nothing is typed the current date-time must be one of whole seconds. -/
theorem asksForTyped_iff
    (h : extractTokenListForDateTime line = [year, month, day, hrs, mins, secs]) (B : Boost)
    (now : PTime) :
    ((selectReading B line now).exit = .returned none →
        AsksForTyped B line now year month day hrs mins secs)
      ↔ (Understood now.date year month day mins → TimeInDay now hrs mins secs ∧
        (NothingTyped year month day hrs mins secs → now.subSecond = 0)) := by
  have htoks := dateTimeTokens_of_extract_six h
  by_cases hunderstood : Understood now.date year month day mins
  · obtain ⟨m, hm, hdate, hword⟩ := id hunderstood
    have hread := selectReading_of_month (B := B) h htoks hm hdate hword
    have hexit : (selectReading B line now).exit = .returned none := by rw [hread]
    rw [← asksForTyped_of_month hm hdate hread]
    exact ⟨fun hasks _ => hasks hexit, fun hasks _ => hasks hunderstood⟩
  · have hexit : (selectReading B line now).exit ≠ .returned none := by
      rw [selectReading, h]
      exact exit_ne_of_not_understood htoks hunderstood
    exact ⟨fun _ hu => absurd hu hunderstood, fun _ he => absurd he hexit⟩

/-- The hour 25, which is read as one o'clock of the next day. -/
theorem not_asksForTyped_hours :
    ¬ ∀ (line : List Text) (year month day hrs mins secs : Text),
        extractTokenListForDateTime line = [year, month, day, hrs, mins, secs] →
          ∀ (B : Boost) (now : PTime), (selectReading B line now).exit = .returned none →
            AsksForTyped B line now year month day hrs mins secs := by
  intro hasks
  obtain ⟨p, -, -, -, -, hhrs, -⟩ := (hasks ["2011-05-14".toList, "25:00:00".toList]
    "2011".toList "05".toList "14".toList "25".toList "00".toList "00".toList (by decide +kernel)
    (sampleBoost true) ⟨⟨2011, 1, 1, by decide⟩, 0, by decide⟩ (by decide +kernel)).fields
  have hlt := p.hours_lt
  rw [hhrs] at hlt
  exact absurd hlt (by decide +kernel)

example : lUserDateTime (sampleBoost true) ["2011-05-14".toList, "25:00:00".toList]
      ⟨⟨2011, 1, 1, by decide⟩, 0, by decide⟩
    = PTime.dateTime ⟨⟨2011, 5, 15, by decide⟩, 3600000000, by decide⟩ := by decide +kernel

/-- The seconds are left out, and are those of the current date-time. -/
theorem asksForTyped_iff_sample :
    AsksForTyped (sampleBoost true) ["2011-May-14".toList, "10:30".toList]
      ⟨⟨2011, 1, 1, by decide⟩, 12345678, by decide⟩ "2011".toList "May".toList "14".toList
      "10".toList "30".toList [] := by
  have hline : extractTokenListForDateTime ["2011-May-14".toList, "10:30".toList]
      = ["2011".toList, "May".toList, "14".toList, "10".toList, "30".toList, []] := by
    decide +kernel
  refine (asksForTyped_iff hline (sampleBoost true) _).mpr (fun _ => ⟨?_, fun hnothing => ?_⟩) ?_
  · decide +kernel
  · exact absurd hnothing (by decide)
  · decide +kernel

end Sevmgr
