import Sevmgr.Model.SampleBoost
import Sevmgr.Reader.Components

/-!
What the reader does with a date-time that it does not understand.

It has two points at which it assigns what it has read, the date and then the time, and it catches
one class of exceptions at each.

* `readDate_of_not_isDate`: what ends the reading before the date is assigned.
* `Understood`, `RejectsCleanly`: all components and the date make sense, and what is asked of the
  reader where they do not.
* `rejectsCleanly_iff`: when the reader meets that, whatever Boost does where it has a choice.
-/

namespace Sevmgr

open DateTimeReader SampleBoost

variable {B : Boost} {date date' : Date} {time : Duration}
  {year month day hrs mins secs : Text}

/-! ### What ends the reading -/

lemma typedDay_lt (h : DateTimeTokens year month day hrs mins secs) (date : Date) :
    typedOr date.day day < 2 ^ 16 := by
  have hday := date.valid.2.2.2
  have hlast := endOfMonthDay_le date.year date.month
  exact typedOr_lt (by omega) h.day (by decide)

/-- Numbers that are no date of the calendar make an exception escape. -/
lemma readDate_of_not_isDate (h : DateTimeTokens year month day hrs mins secs) {m : ℕ}
    (hm : typedMonth date month = .month m)
    (hdate : ¬ IsDate (typedYear date year) m (typedOr date.day day)) :
    ∃ x, readDate B date [year, month, day, hrs, mins, secs] = .error (.raised x) := by
  have hcases := readDate_cases (B := B) h date
  rw [hm] at hcases
  obtain ⟨s, hword, hname, hread⟩ := hcases
  obtain ⟨x, hx⟩ := recomposeDate_of_not_isDate (B := B) date
    (typedYear_lt date h.year) (typedDay_lt h date) hword hname hdate
  refine ⟨x, ?_⟩
  rw [hread, hx]
  rfl

/-! ### Clean rejection -/

/-- Every component and the date recomposed of them can be understood. -/
def Understood (date : Date) (year month day mins : Text) : Prop :=
  ∃ m, typedMonth date month = .month m ∧
    IsDate (typedYear date year) m (typedOr date.day day) ∧ ¬ IsWord mins

/-- The reader returns, and what is not understood changes neither the date nor the time. -/
structure RejectsCleanly (B : Boost) (toks : List Text) (date : Date) (time : Duration)
    (understood : Prop) : Prop where
  returns : ∃ complaint, (parseEventDateTime B toks date time).exit = .returned complaint
  keeps : ¬ understood → (parseEventDateTime B toks date time).date = date ∧
    (parseEventDateTime B toks date time).time = time

/-- What can be typed without harm. A number for the month has to be a month or too great to be one,
and a month gives a date of the calendar, which minutes that are a word leave as it was; with a word
that is no name of a month the year and the day are right by themselves. -/
def Rejectable (date : Date) (year month day mins : Text) : Prop :=
  match typedMonth date month with
  | .month m => IsDate (typedYear date year) m (typedOr date.day day) ∧
      (IsWord mins →
        typedYear date year = date.year ∧ m = date.month ∧ typedOr date.day day = date.day)
  | .noName => IsYear (typedYear date year) ∧ 1 ≤ typedOr date.day day ∧ typedOr date.day day ≤ 31
  | .tooGreat => True
  | .zero => False

/-- A date that is reassigned in parts may be the old one. -/
lemma rejectsCleanly_month (h : DateTimeTokens year month day hrs mins secs) {m : ℕ}
    (hm : typedMonth date month = .month m) :
    RejectsCleanly B [year, month, day, hrs, mins, secs] date time
        (Understood date year month day mins)
      ↔ IsDate (typedYear date year) m (typedOr date.day day) ∧
        (IsWord mins →
          typedYear date year = date.year ∧ m = date.month ∧ typedOr date.day day = date.day) := by
  by_cases hdate : IsDate (typedYear date year) m (typedOr date.day day)
  · have hread := readDate_of_isDate (B := B) h hm hdate
    by_cases hword : IsWord mins
    · have hparse := parse_of_word h hword hread time
      have hnot : ¬ Understood date year month day mins := fun ⟨_, _, _, hmins⟩ => hmins hword
      constructor
      · rintro ⟨-, hkeeps⟩
        have hsame := (hkeeps hnot).1
        rw [hparse, Date.ext_iff] at hsame
        exact ⟨hdate, fun _ => hsame⟩
      · rintro ⟨-, hsame⟩
        refine ⟨by rw [hparse]; exact ⟨_, rfl⟩, fun _ => ?_⟩
        rw [hparse]
        exact ⟨Date.ext_iff.mpr (hsame hword), rfl⟩
    · have hparse := parse_of_digits h (h.minutes.resolve_right hword) hread time
      have hunderstood : Understood date year month day mins := ⟨m, hm, hdate, hword⟩
      exact ⟨fun _ => ⟨hdate, fun hword' => absurd hword' hword⟩, fun _ =>
        ⟨by rw [hparse]; exact ⟨_, rfl⟩, fun hnot => absurd hunderstood hnot⟩⟩
  · obtain ⟨x, hx⟩ := readDate_of_not_isDate (B := B) h hm hdate
    refine ⟨?_, fun hrejectable => absurd hrejectable.1 hdate⟩
    rintro ⟨⟨c, hc⟩, -⟩
    rw [parse_of_error hx] at hc
    exact absurd hc (by simp)

/-- A complaint before the date is assigned is a clean rejection. -/
lemma rejectsCleanly_of_complaint {c : Option Complaint} {understood : Prop}
    (h : readDate B date [year, month, day, hrs, mins, secs] = .error (.returned c)) :
    RejectsCleanly B [year, month, day, hrs, mins, secs] date time understood := by
  refine ⟨⟨c, ?_⟩, fun _ => ?_⟩
  · rw [parse_of_error h]
  · rw [parse_of_error h]
    exact ⟨rfl, rfl⟩

/-- The exception of the check that is made first escapes unless it is that of the month. -/
lemma recomposeDate_of_fault {leftFirst : Bool} {year day : ℕ} {month : Text} (hword : IsWord month)
    (hname : monthOfName? month = none) (hne : faultOf leftFirst year month day ≠ .badMonth) :
    recomposeDate (sampleBoost leftFirst) date year month day
      = .error (.raised (faultOf leftFirst year month day)) := by
  have hsep : '-' ∉ month := fun hmem => absurd (hword.2 _ hmem) (by decide)
  have hraise : (sampleBoost leftFirst).fromSimpleString (dateText year month day)
      = .error (faultOf leftFirst year month day) :=
    (fromSimpleString_dateText leftFirst hsep year day).trans (by rw [dateOf, hname])
  exact recomposeDate_of_raised date hraise hne

/-- With a word that is no name of a month, the first check that is made decides. -/
lemma rejectsCleanly_noName (h : DateTimeTokens year month day hrs mins secs)
    (hm : typedMonth date month = .noName) {understood : Prop} :
    (∀ B, RejectsCleanly B [year, month, day, hrs, mins, secs] date time understood)
      ↔ IsYear (typedYear date year) ∧ 1 ≤ typedOr date.day day ∧ typedOr date.day day ≤ 31 := by
  constructor
  · intro hclean
    -- whichever check comes first, it must be that of the month which fails
    have hfault : ∀ leftFirst, ∃ s,
        faultOf leftFirst (typedYear date year) s (typedOr date.day day) = .badMonth := by
      intro leftFirst
      have hcases := readDate_cases (B := sampleBoost leftFirst) h date
      rw [hm] at hcases
      obtain ⟨s, hword, hname, hdate⟩ := hcases
      obtain ⟨⟨c, hc⟩, -⟩ := hclean (sampleBoost leftFirst)
      refine ⟨s, ?_⟩
      by_contra hne
      rw [recomposeDate_of_fault hword hname hne] at hdate
      rw [parse_of_error hdate] at hc
      exact absurd hc (by simp)
    obtain ⟨s, hs⟩ := hfault true
    obtain ⟨s', hs'⟩ := hfault false
    refine ⟨?_, ?_⟩
    · by_contra hyear
      simp [faultOf, hyear] at hs
    · by_contra hday
      simp [faultOf, hday] at hs'
  · rintro ⟨hyear, hday⟩ B
    have hcases := readDate_cases (B := B) h date
    rw [hm] at hcases
    obtain ⟨s, hword, hname, hdate⟩ := hcases
    rw [recomposeDate_of_noName (typedYear_lt date h.year) (typedDay_lt h date) hword hname hyear
      hday] at hdate
    exact rejectsCleanly_of_complaint hdate

/-- **When bad input is rejected cleanly**: exactly for what is rejectable, if nothing is known of
the order in which Boost makes its checks. -/
theorem rejectsCleanly_iff {line : List Text}
    (h : extractTokenListForDateTime line = [year, month, day, hrs, mins, secs]) (date : Date)
    (time : Duration) :
    (∀ B, RejectsCleanly B [year, month, day, hrs, mins, secs] date time
        (Understood date year month day mins))
      ↔ Rejectable date year month day mins := by
  have htoks := dateTimeTokens_of_extract_six h
  rw [Rejectable]
  cases hm : typedMonth date month with
  | month m =>
      exact ⟨fun hclean => (rejectsCleanly_month htoks hm).mp (hclean (sampleBoost true)),
        fun hrejectable B => (rejectsCleanly_month htoks hm).mpr hrejectable⟩
  | noName => exact rejectsCleanly_noName htoks hm
  | tooGreat =>
      refine iff_of_true (fun B => ?_) trivial
      have hcases := readDate_cases (B := B) htoks date
      rw [hm] at hcases
      obtain ⟨c, hread⟩ := hcases
      exact rejectsCleanly_of_complaint hread
  | zero =>
      refine iff_of_false (fun hclean => ?_) id
      have hread := readDate_cases (B := sampleBoost true) htoks date
      rw [hm] at hread
      obtain ⟨⟨c, hc⟩, -⟩ := hclean (sampleBoost true)
      rw [parse_of_error hread] at hc
      exact absurd hc (by simp)

/-- The thirtieth of February, as a user may type it, is no exception that is caught. -/
theorem not_rejectsCleanly_february :
    ¬ ∀ (line : List Text) (year month day hrs mins secs : Text),
        extractTokenListForDateTime line = [year, month, day, hrs, mins, secs] →
          ∀ (B : Boost) (date : Date) (time : Duration),
            RejectsCleanly B [year, month, day, hrs, mins, secs] date time
              (Understood date year month day mins) := by
  intro hclean
  have hescapes : (parseEventDateTime (sampleBoost true) ["2010".toList, "02".toList, "30".toList,
      "00".toList, "00".toList, "00".toList] ⟨2010, 1, 1, by decide⟩ 0).exit
        = .raised .badDayOfMonth := by decide +kernel
  obtain ⟨c, hc⟩ := (hclean ["2010-02-30".toList, "00:00:00".toList] "2010".toList "02".toList
    "30".toList "00".toList "00".toList "00".toList (by decide +kernel) (sampleBoost true)
    ⟨2010, 1, 1, by decide⟩ 0).returns
  rw [hescapes] at hc
  exact absurd hc (by simp)

/-- The fourteenth of May of 2011, typed over the first of January of that year. The month is
understood by its English name, and rejected by its German one. -/
theorem rejectsCleanly_iff_sample :
    RejectsCleanly (sampleBoost true) ["2011".toList, "May".toList, "14".toList, "00".toList,
        "00".toList, "00".toList] ⟨2011, 1, 1, by decide⟩ 0
      (Understood ⟨2011, 1, 1, by decide⟩ "2011".toList "May".toList "14".toList "00".toList) ∧
    RejectsCleanly (sampleBoost true) ["2011".toList, "Mai".toList, "14".toList, "00".toList,
        "00".toList, "00".toList] ⟨2011, 1, 1, by decide⟩ 0
      (Understood ⟨2011, 1, 1, by decide⟩ "2011".toList "Mai".toList "14".toList "00".toList) ∧
    ¬ Understood ⟨2011, 1, 1, by decide⟩ "2011".toList "Mai".toList "14".toList "00".toList := by
  have hline : extractTokenListForDateTime ["2011-May-14".toList, "00:00:00".toList]
      = ["2011".toList, "May".toList, "14".toList, "00".toList, "00".toList, "00".toList] := by
    decide +kernel
  have hline' : extractTokenListForDateTime ["2011-Mai-14".toList, "00:00:00".toList]
      = ["2011".toList, "Mai".toList, "14".toList, "00".toList, "00".toList, "00".toList] := by
    decide +kernel
  have hmonth : typedMonth ⟨2011, 1, 1, by decide⟩ "May".toList = .month 5 := by decide +kernel
  have hmonth' : typedMonth ⟨2011, 1, 1, by decide⟩ "Mai".toList = .noName := by decide +kernel
  have hyear : typedYear ⟨2011, 1, 1, by decide⟩ "2011".toList = 2011 := by decide +kernel
  have hday : typedOr 1 "14".toList = 14 := by decide +kernel
  refine ⟨(rejectsCleanly_iff hline _ _).mpr ?_ (sampleBoost true),
    (rejectsCleanly_iff hline' _ _).mpr ?_ (sampleBoost true), ?_⟩
  · rw [Rejectable, hmonth, hyear, hday]
    exact ⟨by decide, fun hword => absurd hword (by decide +kernel)⟩
  · rw [Rejectable, hmonth', hyear, hday]
    decide
  · rintro ⟨m, hm, -⟩
    rw [hmonth'] at hm
    exact absurd hm (by simp)

end Sevmgr
