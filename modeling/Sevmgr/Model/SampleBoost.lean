import Sevmgr.Model.Boost

/-!
Conversions as Boost makes them, for the texts that the date-time reader makes up.

A date is read field by field between the hyphens and a time between the colons. In which order the
year, the month and the day are checked is left to the compiler, so it is an argument.

* `fieldsOf`: the fields of a text.
* `dateOf`, `durationOf`: the date and the duration of three fields.
* `sampleBoost`: these conversions, with what is asked of them.
-/

namespace Sevmgr

namespace SampleBoost

/-! ### Fields -/

lemma notMem_decimal {c : Char} (hc : c.isDigit = false) (n : ℕ) : c ∉ decimal n := fun h => by
  rw [isDigit_of_mem_decimal h] at hc
  exact absurd hc (by decide)

/-- Three fields and what lies between them. -/
def fieldsOf (sep : Char) (s : Text) : Option (Text × Text × Text) :=
  match s.splitOn sep with
  | [a, b, c] => some (a, b, c)
  | _ => none

lemma fieldsOf_append {sep : Char} {a b c : Text} (ha : sep ∉ a) (hb : sep ∉ b) (hc : sep ∉ c) :
    fieldsOf sep (a ++ sep :: (b ++ sep :: c)) = some (a, b, c) := by
  rw [fieldsOf, List.splitOn_append_cons_self_of_not_mem ha,
    List.splitOn_append_cons_self_of_not_mem hb, List.splitOn_eq_singleton hc]

/-! ### Conversions -/

/-- The number of a text of digits, if it fits. -/
def lexicalCast (s : Text) : Option ℕ :=
  if s ≠ [] ∧ s.all Char.isDigit ∧ numeral s < 2 ^ 16 then some (numeral s) else none

/-- The exception raised first, the checks being made from the year to the day or from the day to
the year. -/
def faultOf (leftFirst : Bool) (year : ℕ) (month : Text) (day : ℕ) : BoostException :=
  if leftFirst then
    if ¬ IsYear year then .badYear
    else if monthOfName? month = none then .badMonth
    else .badDayOfMonth
  else
    if ¬ (1 ≤ day ∧ day ≤ 31) then .badDayOfMonth
    else if monthOfName? month = none then .badMonth
    else if ¬ IsYear year then .badYear
    else .badDayOfMonth

/-- The date of a year, the name of a month and a day. -/
def dateOf (leftFirst : Bool) (year : ℕ) (month : Text) (day : ℕ) : Except BoostException Date :=
  match monthOfName? month with
  | none => .error (faultOf leftFirst year month day)
  | some m =>
      if h : IsDate year m day then .ok ⟨year, m, day, h⟩
      else .error (faultOf leftFirst year month day)

/-- The date of a text. -/
def fromSimpleString (leftFirst : Bool) (s : Text) : Except BoostException Date :=
  match fieldsOf '-' s with
  | none => .error .badLexicalCast
  | some (year, month, day) => dateOf leftFirst (numeral year) month (numeral day)

/-- The duration of a text. -/
def durationFromString (s : Text) : Except BoostException Duration :=
  match fieldsOf ':' s with
  | none => .error .badLexicalCast
  | some (hours, minutes, seconds) =>
      .ok (3600000000 * numeral hours + 60000000 * numeral minutes + 1000000 * numeral seconds)

/-- The exception raised is one that the numbers give cause for. -/
lemma fault_faultOf {leftFirst : Bool} {year : ℕ} {month : Text} {day : ℕ}
    (hbad : ∀ m, monthOfName? month = some m → ¬ IsDate year m day)
    (hm : ∀ m, monthOfName? month = some m → 1 ≤ m ∧ m ≤ 12) :
    Fault year month day (faultOf leftFirst year month day) := by
  -- a day that passes its own check may still be one too many for the month
  have hlast : ∀ m, monthOfName? month = some m → IsYear year → 1 ≤ day →
      endOfMonthDay year m < day := fun m hmon hy hday => by
    by_contra hle
    exact hbad m hmon ⟨hy, hm m hmon, hday, by omega⟩
  rw [faultOf]
  by_cases hy : IsYear year
  · by_cases hday : 1 ≤ day ∧ day ≤ 31
    · cases hmon : monthOfName? month with
      | none => simpa [hy, hday] using Fault.month hmon
      | some m => simpa [hy, hday] using Fault.dayOfMonth hmon hy (hlast m hmon hy hday.1)
    · cases leftFirst with
      | false => simpa [hday] using Fault.day hday
      | true =>
          by_cases hmon : monthOfName? month = none
          · simpa [hy, hmon] using Fault.month hmon
          · simpa [hy, hmon] using Fault.day hday
  · cases leftFirst with
    | true => simpa [hy] using Fault.year hy
    | false =>
        by_cases hday : 1 ≤ day ∧ day ≤ 31
        · by_cases hmon : monthOfName? month = none
          · simpa [hday, hmon] using Fault.month hmon
          · simpa [hy, hday, hmon] using Fault.year hy
        · simpa [hday] using Fault.day hday

/-- The table of names has twelve entries. -/
lemma monthOfName?_range {name : Text} {m : ℕ} (h : monthOfName? name = some m) :
    1 ≤ m ∧ m ≤ 12 := by
  rw [monthOfName?, Option.map_eq_some_iff] at h
  obtain ⟨i, hi, rfl⟩ := h
  obtain ⟨hlt, -⟩ := List.findIdx?_eq_some_iff_getElem.mp hi
  have : monthNames.length = 12 := rfl
  omega

/-- The text made of three fields is read back as these. -/
lemma fromSimpleString_dateText (leftFirst : Bool) {month : Text} (hsep : '-' ∉ month)
    (year day : ℕ) :
    fromSimpleString leftFirst (dateText year month day) = dateOf leftFirst year month day := by
  rw [fromSimpleString, dateText,
    fieldsOf_append (notMem_decimal (by decide) _) hsep (notMem_decimal (by decide) _)]
  simp only [numeral_decimal]

end SampleBoost

open SampleBoost in
/-- Conversions that check the fields of a date in one of two orders. -/
def sampleBoost (leftFirst : Bool) : Boost where
  lexicalCast := lexicalCast
  fromSimpleString := fromSimpleString leftFirst
  durationFromString := durationFromString
  showDate date := dateText date.year (monthNames.getD (date.month - 1) []) date.day
  showDuration d := decimal d.toNat
  lexicalCast_digits s hne hdigit hlt := if_pos ⟨hne, List.all_eq_true.mpr hdigit, hlt⟩
  lexicalCast_alpha s c hc halpha := by
    refine if_neg fun h => ?_
    rw [isAlpha_of_isDigit (List.all_eq_true.mp h.2.1 c hc)] at halpha
    exact absurd halpha (by decide)
  fromSimpleString_date year month day m h hm := by
    have hsep : '-' ∉ month := fun hmem => by
      rw [monthOfName?, Option.map_eq_some_iff] at hm
      obtain ⟨i, hi, -⟩ := hm
      obtain ⟨hlt, hname, -⟩ := List.findIdx?_eq_some_iff_getElem.mp hi
      have hmem' : '-' ∈ monthNames[i] := by
        rw [of_decide_eq_true hname]
        exact List.mem_map.mpr ⟨'-', hmem, rfl⟩
      have hnone : ∀ name ∈ monthNames, '-' ∉ name := by decide
      exact hnone _ (List.getElem_mem hlt) hmem'
    rw [fromSimpleString_dateText leftFirst hsep]
    simp only [dateOf, hm, h, dif_pos]
  fromSimpleString_fault year month day hyear hday hlen halpha hbad := by
    have hsep : '-' ∉ month := fun hmem => absurd (halpha _ hmem) (by decide)
    refine ⟨faultOf leftFirst year month day,
      fault_faultOf hbad fun m hm => monthOfName?_range hm, ?_⟩
    rw [fromSimpleString_dateText leftFirst hsep, dateOf]
    cases hm : monthOfName? month with
    | none => rfl
    | some m => simp only [hbad m hm, dif_neg, not_false_eq_true]
  durationFromString_time hours minutes seconds _ _ _ := by
    rw [durationFromString, timeText, fieldsOf_append (notMem_decimal (by decide) _)
      (notMem_decimal (by decide) _) (notMem_decimal (by decide) _)]
    simp only [numeral_decimal]

end Sevmgr
