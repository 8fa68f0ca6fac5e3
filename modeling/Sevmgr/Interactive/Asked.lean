import Sevmgr.Model.Interactive
import Sevmgr.Reader.Selected

/-!
The date-times that the command `SELECT` may ask for, whatever is typed.

* `readDate_error_of_no_date`: tokens that are no date end the reading.
* `dvd_selectReading`: the time that is read is one of whole milliseconds if that of the current
  event is, and so is the date-time of `dvd_lUserDateTime`.
-/

namespace Sevmgr

open DateTimeReader

variable {B : Boost} {line : List Text} {now : PTime}

lemma dvd_typedTime (time : Duration) (hrs mins secs : Text) :
    (1000 : ℤ) ∣ typedTime time hrs mins secs := by
  refine dvd_add (dvd_add ?_ ?_) ?_
  · exact Dvd.dvd.mul_right (by decide) _
  · exact Dvd.dvd.mul_right (by decide) _
  · exact Dvd.dvd.mul_right (by decide) _

/-- The reading ends before the time is assigned where there is no date. -/
lemma readDate_error_of_no_date {year month day hrs mins secs : Text} {date : Date}
    (htokens : DateTimeTokens year month day hrs mins secs)
    (hdate : ¬ ∃ m, typedMonth date month = .month m ∧
      IsDate (typedYear date year) m (typedOr date.day day)) :
    ∃ x, readDate B date [year, month, day, hrs, mins, secs] = .error x := by
  have hcases := readDate_cases (B := B) htokens date
  cases hm : typedMonth date month with
  | month m =>
      obtain ⟨x, hx⟩ := readDate_of_not_isDate (B := B) htokens hm fun hd => hdate ⟨m, hm, hd⟩
      exact ⟨_, hx⟩
  | noName =>
      rw [hm] at hcases
      obtain ⟨s, hword, hname, hread⟩ := hcases
      obtain ⟨x, hx, -⟩ := recomposeDate_error_of_noName (B := B) date
        (typedYear_lt date htokens.year) (typedDay_lt htokens date) hword hname
      rw [hread, hx]
      exact ⟨x, rfl⟩
  | tooGreat =>
      rw [hm] at hcases
      obtain ⟨c, hread⟩ := hcases
      exact ⟨_, hread⟩
  | zero =>
      rw [hm] at hcases
      exact ⟨_, hcases⟩

/-- The time that is left is the old one, or it has been put together in whole seconds. -/
lemma dvd_selectReading (h : (1000 : ℤ) ∣ now.timeOfDay) :
    (1000 : ℤ) ∣ (selectReading B line now).time := by
  obtain ⟨year, month, day, hrs, mins, secs, htoks, htokens⟩ := isDateTimeTokens_extract line
  rw [selectReading, htoks]
  by_cases hdate : ∃ m, typedMonth now.date month = .month m ∧
      IsDate (typedYear now.date year) m (typedOr now.date.day day)
  · obtain ⟨m, hm, hdate⟩ := hdate
    have hread := readDate_of_isDate (B := B) htokens hm hdate
    by_cases hword : IsWord mins
    · rw [parse_of_word htokens hword hread]
      exact h
    · rw [parse_of_digits htokens (htokens.minutes.resolve_right hword) hread]
      exact dvd_typedTime _ _ _ _
  · obtain ⟨x, hx⟩ := readDate_error_of_no_date (B := B) htokens hdate
    rw [parse_of_error hx]
    exact h

/-- **`SELECT` asks for whole milliseconds** at an event of whole milliseconds. -/
theorem dvd_lUserDateTime (h : (1000 : ℤ) ∣ now.timeOfDay) :
    (1000 : ℤ) ∣ lUserDateTime B line now := by
  refine dvd_add (Dvd.dvd.mul_right (by decide) _) ?_
  exact dvd_selectReading h

/-- The time of day of a date-time of whole milliseconds is such. -/
lemma dvd_timeOfDay (h : (1000 : ℤ) ∣ now.dateTime) : (1000 : ℤ) ∣ now.timeOfDay :=
  (Int.dvd_add_right (Dvd.dvd.mul_right (by decide) _)).mp h

end Sevmgr
