import Mathlib
import Sevmgr.Model.Stdair

/-!
What the date-time reader of SEvMgr uses of Boost.

Boost is a library of its own, so its conversions are the fields of a parameter, with what its
documentation says of them on the texts that the reader makes up.

* `Text`, `decimal`, `dateText`, `timeText`: texts, and the texts of numbers, dates and times that
  are written to a stream.
* `Date`: the dates of `boost::gregorian`, which are dates of the calendar.
* `BoostException`, `Fault`: the exceptions, and which of them the conversion of a year, a month and
  a day may raise.
* `Boost`: the conversions.
-/

namespace Sevmgr

/-! ### Texts -/

/-- `std::string`. -/
abbrev Text := List Char

/-- A number written to a stream. -/
def decimal (n : ℕ) : Text := Nat.toDigits 10 n

/-- The number that digits stand for. -/
def numeral (s : Text) : ℕ := Nat.ofDigitChars 10 s 0

lemma numeral_decimal (n : ℕ) : numeral (decimal n) = n := Nat.ofDigitChars_ten_toDigits

lemma isDigit_of_mem_decimal {n : ℕ} {c : Char} (h : c ∈ decimal n) : c.isDigit = true :=
  Nat.isDigit_of_mem_toDigits (by decide) (by decide) h

/-- No character is both a digit and a letter. -/
lemma isAlpha_of_isDigit {c : Char} (h : c.isDigit = true) : c.isAlpha = false := by
  rw [← Bool.not_eq_true]
  intro halpha
  simp only [Char.isAlpha, Char.isUpper, Char.isLower, Char.isDigit, Bool.or_eq_true,
    Bool.and_eq_true, decide_eq_true_eq, UInt32.le_iff_toNat_le, ge_iff_le] at h halpha
  have hA : 'A'.val.toNat = 65 := rfl
  have ha : 'a'.val.toNat = 97 := rfl
  have h9 : '9'.val.toNat = 57 := rfl
  omega

/-- The year, the month and the day, separated by hyphens. -/
def dateText (year : ℕ) (month : Text) (day : ℕ) : Text :=
  decimal year ++ '-' :: (month ++ '-' :: decimal day)

/-- The hours, the minutes and the seconds, separated by colons. -/
def timeText (hours minutes seconds : ℕ) : Text :=
  decimal hours ++ ':' :: (decimal minutes ++ ':' :: decimal seconds)

/-! ### Dates -/

/-- The last day of a month. -/
def endOfMonthDay (year month : ℕ) : ℕ :=
  if month = 2 then
    if year % 4 = 0 ∧ (year % 100 ≠ 0 ∨ year % 400 = 0) then 29 else 28
  else if month = 4 ∨ month = 6 ∨ month = 9 ∨ month = 11 then 30
  else 31

/-- The years of the calendar. -/
def IsYear (year : ℕ) : Prop := 1400 ≤ year ∧ year ≤ 9999

/-- The three numbers are a date of the calendar. -/
def IsDate (year month day : ℕ) : Prop :=
  IsYear year ∧ (1 ≤ month ∧ month ≤ 12) ∧ 1 ≤ day ∧ day ≤ endOfMonthDay year month

instance (year : ℕ) : Decidable (IsYear year) :=
  inferInstanceAs (Decidable (1400 ≤ year ∧ year ≤ 9999))

instance (year month day : ℕ) : Decidable (IsDate year month day) :=
  inferInstanceAs (Decidable (IsYear year ∧ (1 ≤ month ∧ month ≤ 12) ∧
    1 ≤ day ∧ day ≤ endOfMonthDay year month))

/-- `stdair::Date_T`, a `date` of Boost. -/
@[ext] structure Date where
  year : ℕ
  month : ℕ
  day : ℕ
  valid : IsDate year month day
deriving DecidableEq

lemma endOfMonthDay_le (year month : ℕ) : endOfMonthDay year month ≤ 31 := by
  rw [endOfMonthDay]
  split_ifs <;> omega

/-- The names by which months are known, in small letters. -/
def monthNames : List Text :=
  [['j', 'a', 'n'], ['f', 'e', 'b'], ['m', 'a', 'r'], ['a', 'p', 'r'], ['m', 'a', 'y'],
    ['j', 'u', 'n'], ['j', 'u', 'l'], ['a', 'u', 'g'], ['s', 'e', 'p'], ['o', 'c', 't'],
    ['n', 'o', 'v'], ['d', 'e', 'c']]

/-- The month of a name, whatever its letter case. -/
def monthOfName? (name : Text) : Option ℕ :=
  (monthNames.findIdx? (· = name.map Char.toLower)).map (· + 1)

/-! ### Exceptions -/

/-- The exceptions of Boost that the reader may meet: three of `boost::gregorian`, and
`boost::bad_lexical_cast`. -/
inductive BoostException where
  | badYear
  | badMonth
  | badDayOfMonth
  | badLexicalCast
deriving DecidableEq, Repr

/-- What may be raised for a year, the name of a month and a day: each of the three is checked on
its own, in no specified order, and then the day against the length of the month. -/
inductive Fault (year : ℕ) (month : Text) (day : ℕ) : BoostException → Prop where
  | year (h : ¬ IsYear year) : Fault year month day .badYear
  | month (h : monthOfName? month = none) : Fault year month day .badMonth
  | day (h : ¬ (1 ≤ day ∧ day ≤ 31)) : Fault year month day .badDayOfMonth
  | dayOfMonth {m : ℕ} (hm : monthOfName? month = some m) (hy : IsYear year)
      (h : endOfMonthDay year m < day) : Fault year month day .badDayOfMonth

/-! ### Conversions -/

/-- The conversions. `lexicalCast` is `boost::lexical_cast<unsigned short>`, with no value where it
raises `bad_lexical_cast`; `fromSimpleString` and `durationFromString` are those of
`boost::gregorian` and `boost::posix_time`; `showDate` and `showDuration` write to a stream. -/
structure Boost where
  lexicalCast : Text → Option ℕ
  fromSimpleString : Text → Except BoostException Date
  durationFromString : Text → Except BoostException Duration
  showDate : Date → Text
  showDuration : Duration → Text
  lexicalCast_digits : ∀ s : Text, s ≠ [] → (∀ c ∈ s, c.isDigit = true) → numeral s < 2 ^ 16 →
    lexicalCast s = some (numeral s)
  lexicalCast_alpha : ∀ (s : Text) (c : Char), c ∈ s → c.isAlpha = true → lexicalCast s = none
  fromSimpleString_date : ∀ (year : ℕ) (month : Text) (day m : ℕ) (h : IsDate year m day),
    monthOfName? month = some m →
      fromSimpleString (dateText year month day) = .ok ⟨year, m, day, h⟩
  fromSimpleString_fault : ∀ (year : ℕ) (month : Text) (day : ℕ), year < 2 ^ 16 → day < 2 ^ 16 →
    month.length = 3 → (∀ c ∈ month, c.isAlpha = true) →
      (∀ m, monthOfName? month = some m → ¬ IsDate year m day) →
        ∃ x, Fault year month day x ∧ fromSimpleString (dateText year month day) = .error x
  durationFromString_time : ∀ hours minutes seconds : ℕ, hours < 2 ^ 16 → minutes < 2 ^ 16 →
    seconds < 2 ^ 16 → durationFromString (timeText hours minutes seconds)
      = .ok (3600000000 * hours + 60000000 * minutes + 1000000 * seconds)

end Sevmgr
