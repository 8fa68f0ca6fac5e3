import Sevmgr.Model.SampleBoost
import Sevmgr.Reader.Components
import Sevmgr.Reader.Writing

/-!
A date and a time of day are read back from every writing of them.

All groups and separators of the regular expression are optional, but the fields that are written
have as many digits as their groups take, so that the first way of the matcher goes from field to
field without ever coming back.

* `takes_digits`, `takes_wordOrNumber`, `takes_separator`, `takes_gap`: the pieces of the
  expression.
* `search_text`, `extract_writing`: the whole of it, and the tokens.
* `typedYear_writing`, `typedMonth_writing`, `typedTime_writing`: what they stand for.
* `parse_writing`: **the round trip**.
-/

namespace Sevmgr

open DateTimeReader Regex

variable {i : ℕ} {w sep t v : Text} {c c' : ℕ → Text} {rs : List (Regex Char)}

/-! ### Fields -/

/-- A group takes as many digits as it may. -/
lemma takes_digits {m n : ℕ} (hmn : m ≤ n) (hlen : w.length = n)
    (hw : ∀ x ∈ w, x.isDigit = true) (h : Takes (seqs rs) (Function.update c i w) v t c') :
    Takes (seqs (.opt (.group i (digits m n)) :: rs)) c (w ++ v) t c' :=
  ((takes_between_letter (hlen ▸ hmn) hlen.le hw (Or.inl hlen) c).group i).opt.seq h

/-- Three letters are taken as such, and what starts with a digit is no word. -/
lemma takes_wordOrNumber (hw : (w.length = 2 ∧ ∀ x ∈ w, x.isDigit = true) ∨ IsWord w)
    (h : Takes (seqs rs) (Function.update c i w) v t c') :
    Takes (seqs (.opt (.group i wordOrNumber) :: rs)) c (w ++ v) t c' := by
  have htakes : Takes wordOrNumber c w (v ++ t) c := by
    rcases hw with ⟨hlen, hdigit⟩ | ⟨hlen, halpha⟩
    · refine .altRight (fails_times_letter (fun x hx => isAlpha_of_isDigit ?_) 2)
        (takes_between_letter (by omega) hlen.le hdigit (Or.inl hlen) c)
      obtain ⟨a, b, rfl⟩ := List.length_eq_two.mp hlen
      obtain rfl : a = x := Option.some.inj hx
      exact hdigit a List.mem_cons_self
    · refine .altLeft ?_
      rw [← hlen]
      exact takes_times_letter halpha c _
  exact (htakes.group i).opt.seq h

/-! ### Separators -/

/-- Nothing, a blank, or a character that the expression takes for a separator. -/
def SeparatorOf (p : Char → Bool) (sep : Text) : Prop :=
  sep = [] ∨ sep = [' '] ∨ ∃ x, p x = true ∧ sep = [x]

lemma separatorOf_of_mem {p : Char → Bool} {a b : Char} (ha : p a = true) (hb : p b = true)
    (h : sep ∈ [[a], [b], [' '], []]) : SeparatorOf p sep := by
  simp only [List.mem_cons, List.not_mem_nil, or_false] at h
  rcases h with rfl | rfl | rfl | rfl
  · exact Or.inr (Or.inr ⟨_, ha, rfl⟩)
  · exact Or.inr (Or.inr ⟨_, hb, rfl⟩)
  · exact Or.inr (Or.inl rfl)
  · exact Or.inl rfl

lemma separatorOf_date (h : sep ∈ dateSeparators) : SeparatorOf isDateSeparator sep :=
  separatorOf_of_mem rfl rfl h

lemma separatorOf_time (h : sep ∈ timeSeparators) : SeparatorOf isTimeSeparator sep :=
  separatorOf_of_mem rfl rfl h

/-- The text goes on with a field. -/
def FieldNext (t : Text) : Prop := ∀ x ∈ t.head?, x.isAlphanum = true

lemma IsField.fieldNext (h : IsField w) (v t : Text) : FieldNext (w ++ v ++ t) := by
  intro x hx
  obtain ⟨a, w, rfl⟩ := List.exists_cons_of_ne_nil h.1
  obtain rfl : a = x := Option.some.inj hx
  exact h.2 a List.mem_cons_self

/-- No letter and no digit is among the characters of a list that has none. -/
lemma eq_false_of_isAlphanum {p : Char → Bool} (l : List Char) (hp : ∀ x, p x = true → x ∈ l)
    (hl : l.all (fun x => !x.isAlphanum) = true) {x : Char} (h : x.isAlphanum = true) :
    p x = false := by
  rw [← Bool.not_eq_true]
  intro hx
  have hnot := List.all_eq_true.mp hl x (hp x hx)
  rw [h] at hnot
  exact absurd hnot (by decide)

lemma isSpace_of_isAlphanum {x : Char} : x.isAlphanum = true → isSpace x = false :=
  eq_false_of_isAlphanum [' ', '\t', '\n', '\x0b', '\x0c', '\r'] (by simp [isSpace, or_assoc])
    (by decide)

lemma isDateSeparator_of_isAlphanum {x : Char} : x.isAlphanum = true → isDateSeparator x = false :=
  eq_false_of_isAlphanum ['/', '-'] (by simp [isDateSeparator]) (by decide)

lemma isTimeSeparator_of_isAlphanum {x : Char} : x.isAlphanum = true → isTimeSeparator x = false :=
  eq_false_of_isAlphanum [':', '-'] (by simp [isTimeSeparator]) (by decide)

/-- The blanks before a field. -/
lemma takes_gap (hsep : ∀ x ∈ sep, isSpace x = true) (hnext : FieldNext (v ++ t))
    (h : Takes (seqs rs) c v t c') : Takes (seqs (spaces :: rs)) c (sep ++ v) t c' :=
  (takes_star_letter hsep (fun x hx => isSpace_of_isAlphanum (hnext x hx)) c).seq h

lemma takes_noGap (hnext : FieldNext (v ++ t)) (h : Takes (seqs rs) c v t c') :
    Takes (seqs (spaces :: rs)) c v t c' :=
  takes_gap (List.forall_mem_nil _) hnext h

/-- What stands between two fields. -/
lemma takes_separator {p : Char → Bool} (hp : ∀ x, x.isAlphanum = true → p x = false)
    (hblank : p ' ' = false) (hsep : SeparatorOf p sep) (hnext : FieldNext (v ++ t))
    (h : Takes (seqs rs) c v t c') :
    Takes (seqs (.opt (.letter p) :: spaces :: rs)) c (sep ++ v) t c' := by
  rcases hsep with rfl | rfl | ⟨x, hx, rfl⟩
  · exact (takes_opt_of_fails (fails_letter fun x hx => hp x (hnext x hx)) c).seq
      (takes_noGap hnext h)
  · refine (takes_opt_of_fails (fails_letter fun x hx => ?_) c).seq
      (takes_gap (List.forall_mem_singleton.mpr rfl) hnext h)
    obtain rfl : ' ' = x := Option.some.inj hx
    exact hblank
  · exact (takes_letter hx c _).opt.seq
      (takes_noGap hnext h)

/-! ### The whole expression -/

variable {date : Date}

/-- The tokens of a writing. -/
def Writing.tokens (w : Writing date) (time : TimeOfDay) : List Text :=
  [padded 4 date.year, w.month, padded 2 date.day, padded 2 time.hours, padded 2 time.minutes,
    padded 2 time.seconds]

/-- The groups of the expression record the fields of a writing. -/
lemma search_text (w : Writing date) (time : TimeOfDay) :
    ∃ what, lRegEx.search (w.text time) = some what ∧
      (List.range 6).map (fun i => what.captures (i + 1)) = w.tokens time := by
  have hdigit : ∀ k n, ∀ x ∈ padded k n, x.isDigit = true := fun k n x hx =>
    isDigit_of_mem_padded hx
  have hgap : ∀ sep ∈ gaps, ∀ x ∈ sep, isSpace x = true := by
    simp [gaps, isSpace]
  have hend : ∀ c, Takes (seqs [spaces, lineEnd]) c [] [] c := fun c =>
    takes_noGap (fun _ hx => absurd hx (by simp))
      ((takes_lineEnd c).seq (v := []) (takes_empty c []))
  have hseconds : ∀ c, Takes (seqs [.opt (.group 6 (digits 1 2)), spaces, lineEnd]) c
      (padded 2 time.seconds) [] (Function.update c 6 (padded 2 time.seconds)) := fun c => by
    have htakes := takes_digits (m := 1) (c := c) (by decide) (length_padded 2 time.seconds)
      (hdigit _ _) (hend (Function.update c 6 (padded 2 time.seconds)))
    rwa [List.append_nil] at htakes
  -- each field, and what stands after it
  obtain ⟨what, hwhat, hcaptures⟩ :
      ∃ what, lRegEx.search (w.text time ++ []) = some what ∧ what.captures = _ :=
    search_of_takes rfl <|
    takes_digits (by decide) (length_padded 4 _) (hdigit _ _) <|
    takes_separator (fun _ => isDateSeparator_of_isAlphanum) rfl
      (separatorOf_date w.afterYear_mem) (w.isField_month.fieldNext _ []) <|
    takes_wordOrNumber w.month_cases <|
    takes_separator (fun _ => isDateSeparator_of_isAlphanum) rfl
      (separatorOf_date w.afterMonth_mem) ((isField_padded 1 _).fieldNext _ []) <|
    takes_digits (by decide) (length_padded 2 _) (hdigit _ _) <|
    takes_gap (hgap _ w.afterDay_mem) ((isField_padded 1 _).fieldNext _ []) <|
    takes_digits (by decide) (length_padded 2 _) (hdigit _ _) <|
    takes_separator (fun _ => isTimeSeparator_of_isAlphanum) rfl
      (separatorOf_time w.afterHours_mem) ((isField_padded 1 _).fieldNext _ []) <|
    takes_wordOrNumber (Or.inl ⟨length_padded 2 _, hdigit _ _⟩) <|
    takes_separator (fun _ => isTimeSeparator_of_isAlphanum) rfl
      (separatorOf_time w.afterMinutes_mem)
      (by simpa using (isField_padded 1 time.seconds).fieldNext [] []) (hseconds _)
  rw [List.append_nil] at hwhat
  exact ⟨what, hwhat, by rw [hcaptures]; rfl⟩

/-- The tokens of a line are the fields that were written. -/
theorem extract_writing (w : Writing date) (time : TimeOfDay) :
    extractTokenListForDateTime (splitOnBlanks (w.text time)) = w.tokens time := by
  obtain ⟨what, hwhat, hcaptures⟩ := search_text w time
  rw [extractTokenListForDateTime, extractTokenList, w.toString_text, hwhat]
  exact hcaptures

/-! ### What the tokens stand for -/

lemma isDigits_padded {k n : ℕ} (m : ℕ) (h : m ≤ k) : IsDigits m k (padded k n) :=
  Or.inr ⟨⟨by rwa [length_padded], (length_padded k n).le⟩, fun _ => isDigit_of_mem_padded⟩

lemma dateTimeTokens_writing (w : Writing date) (time : TimeOfDay) :
    DateTimeTokens (padded 4 date.year) w.month (padded 2 date.day) (padded 2 time.hours)
      (padded 2 time.minutes) (padded 2 time.seconds) where
  year := isDigits_padded 2 (by decide)
  month := w.month_cases.imp_left fun ⟨hlen, hdigit⟩ => Or.inr ⟨by omega, hdigit⟩
  day := isDigits_padded 1 (by decide)
  hours := isDigits_padded 1 (by decide)
  minutes := Or.inl (isDigits_padded 1 (by decide))
  seconds := isDigits_padded 1 (by decide)

lemma typedOr_padded {n : ℕ} (default : ℕ) (h : n < 100) : typedOr default (padded 2 n) = n := by
  rw [typedOr, if_neg (isField_padded 1 n).1, numeral_padded h]

/-- No year of the calendar is taken for one of this century. -/
lemma typedYear_writing (default date : Date) :
    typedYear default (padded 4 date.year) = date.year := by
  have hyear := date.valid.1
  rw [typedYear, if_neg (isField_padded 3 _).1, numeral_padded (by rw [IsYear] at hyear; omega),
    if_neg (by rw [IsYear] at hyear; omega)]

lemma typedMonth_writing (default : Date) (w : Writing date) :
    typedMonth default w.month = .month date.month := by
  have hmonth := date.valid.2.1
  rw [typedMonth, if_neg w.isField_month.1]
  rcases w.month_valid with h | h
  · have hnumeral : numeral w.month = date.month := by rw [h, numeral_padded (by omega)]
    have hall : w.month.all Char.isDigit = true := by
      rw [h, List.all_eq_true]
      exact fun _ => isDigit_of_mem_padded
    rw [if_pos hall, hnumeral, if_neg (by omega), if_pos hmonth.2]
  · rw [if_neg (isWord_of_monthOfName? h).not_all_isDigit, h]

lemma typedTime_writing (default : Duration) (time : TimeOfDay) :
    typedTime default (padded 2 time.hours) (padded 2 time.minutes) (padded 2 time.seconds)
      = time.duration := by
  obtain ⟨hhours, hminutes, hseconds⟩ := time.valid
  rw [typedTime, typedOr_padded _ (by omega), typedOr_padded _ (by omega),
    typedOr_padded _ (by omega), TimeOfDay.duration]

/-! ### The round trip -/

/-- **A date and a time of day are read back** from every writing of them, whatever the default. -/
theorem parse_writing (B : Boost) (date : Date) (time : TimeOfDay) (w : Writing date)
    (ioEventDate : Date) (ioEventTime : Duration) :
    parseEventDateTime B (extractTokenListForDateTime (splitOnBlanks (w.text time))) ioEventDate
        ioEventTime = ⟨.returned none, date, time.duration⟩ := by
  have htoks := dateTimeTokens_writing w time
  have hyear := typedYear_writing ioEventDate date
  have hmonth := typedMonth_writing ioEventDate w
  have hday := typedOr_padded ioEventDate.day
    (show date.day < 100 from lt_of_le_of_lt (date.valid.2.2.2.trans (endOfMonthDay_le _ _))
      (by decide))
  have hdate : IsDate (typedYear ioEventDate (padded 4 date.year)) date.month
      (typedOr ioEventDate.day (padded 2 date.day)) := by
    rw [hyear, hday]
    exact date.valid
  have hread := readDate_of_isDate (B := B) htoks hmonth hdate
  rw [extract_writing, Writing.tokens,
    parse_of_digits htoks (isDigits_padded 1 (by decide)) hread, typedTime_writing]
  congr 1
  exact Date.ext hyear rfl hday

/-- The month as a word in small letters, and little between the fields. -/
theorem parse_writing_sample :
    parseEventDateTime (sampleBoost true) (extractTokenListForDateTime
        ["2012feb29".toList, "10:30-05".toList]) ⟨2011, 1, 1, by decide⟩ 0
      = ⟨.returned none, ⟨2012, 2, 29, by decide⟩, 37805000000⟩ := by
  have hread := parse_writing (sampleBoost true) ⟨2012, 2, 29, by decide⟩ ⟨10, 30, 5, by decide⟩
    ⟨"feb".toList, [], [], [' '], [':'], ['-'], by decide, by decide, by decide, by decide,
      by decide, by decide⟩ ⟨2011, 1, 1, by decide⟩ 0
  exact hread

end Sevmgr
