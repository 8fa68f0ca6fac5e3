import Sevmgr.Reader.Tokens

/-!
What the reader makes of the tokens of a date-time.

* `typedOr`, `typedYear`, `typedMonth`: what a token stands for, with the default where it is empty.
* `readNumber_of_digits`, `readNumber_of_word`, `readMonth_cases`: the components.
* `recomposeDate_of_isDate` and its companions: the date recomposed of them.
* `readDate_cases`, `readTime_of_digits`, `readTime_of_word`: both of them on the six tokens of a
  date-time.
* `parse_of_error`, `parse_of_digits`, `parse_of_word`: how the reading ends, by what was
  recomposed.
-/

namespace Sevmgr

open DateTimeReader

/-! ### What a token stands for -/

/-- The number of a token, or the default. -/
def typedOr (default : ℕ) (tok : Text) : ℕ := if tok = [] then default else numeral tok

/-- The year of a token, two digits standing for a year of this century. -/
def typedYear (date : Date) (tok : Text) : ℕ :=
  if tok = [] then date.year else if numeral tok < 100 then numeral tok + 2000 else numeral tok

/-- What the token of a month may stand for: a month, a word that is no name of one, or a number
that is none, too great or zero. -/
inductive MonthMeaning where
  | month (m : ℕ)
  | noName
  | tooGreat
  | zero
deriving DecidableEq, Repr

/-- The month of a token. -/
def typedMonth (date : Date) (tok : Text) : MonthMeaning :=
  if tok = [] then .month date.month
  else if tok.all Char.isDigit then
    if numeral tok = 0 then .zero
    else if numeral tok ≤ 12 then .month (numeral tok)
    else .tooGreat
  else match monthOfName? tok with
    | some m => .month m
    | none => .noName

/-- The time of three tokens. -/
def typedTime (time : Duration) (hrs mins secs : Text) : Duration :=
  3600000000 * (typedOr (toUnsignedShort (hours time)) hrs : ℕ)
    + 60000000 * (typedOr (toUnsignedShort (minutes time)) mins : ℕ)
    + 1000000 * (typedOr (toUnsignedShort (seconds time)) secs : ℕ)

lemma typedOr_lt {default m n : ℕ} {tok : Text} (hd : default < 2 ^ 16) (h : IsDigits m n tok)
    (hn : n ≤ 4) : typedOr default tok < 2 ^ 16 := by
  rw [typedOr]
  split_ifs
  · exact hd
  · calc numeral tok < 10 ^ n := h.numeral_lt
      _ ≤ 10 ^ 4 := Nat.pow_le_pow_right (by decide) hn
      _ < 2 ^ 16 := by decide

lemma typedYear_lt (date : Date) {tok : Text} (h : IsDigits 2 4 tok) :
    typedYear date tok < 2 ^ 16 := by
  have hlt := h.numeral_lt
  have hyear := date.valid.1.2
  rw [typedYear]
  split_ifs <;> omega

lemma toUnsignedShort_lt (x : ℤ) : toUnsignedShort x < 2 ^ 16 := by
  rw [toUnsignedShort]
  omega

/-! ### Single components -/

variable {B : Boost}

lemma lexicalCast_of_digits {m n : ℕ} {tok : Text} (h : IsDigits m n tok) (hn : n ≤ 4)
    (hne : tok ≠ []) : B.lexicalCast tok = some (numeral tok) := by
  have hlt : numeral tok < 2 ^ 16 := by
    have hor : typedOr 0 tok < 2 ^ 16 := typedOr_lt (by decide) h hn
    rwa [typedOr, if_neg hne] at hor
  exact B.lexicalCast_digits tok hne (h.resolve_left hne).2 hlt

/-- A number is read from digits. -/
lemma readNumber_of_digits {subject : String} {adjust : ℕ → ℕ} {default m n : ℕ} {tok : Text}
    (h : IsDigits m n tok) (hn : n ≤ 4) : readNumber B subject adjust default tok
      = .ok (if tok = [] then default else adjust (numeral tok)) := by
  rw [readNumber]
  by_cases hne : tok = []
  · rw [if_pos (List.isEmpty_iff.mpr hne), if_pos hne]
  · rw [if_neg (by rwa [List.isEmpty_iff]), if_neg hne, lexicalCast_of_digits h hn hne]

/-- A word is no number. -/
lemma readNumber_of_word {subject : String} {adjust : ℕ → ℕ} {default : ℕ} {tok : Text}
    (h : IsWord tok) : readNumber B subject adjust default tok
      = .error (.complain subject tok (decimal default)) := by
  obtain ⟨c, hc⟩ := List.exists_mem_of_ne_nil tok h.ne_nil
  rw [readNumber, if_neg (by rw [List.isEmpty_iff]; exact h.ne_nil),
    B.lexicalCast_alpha tok c hc (h.2 c hc)]

lemma readYear_of_digits (date : Date) {tok : Text} (h : IsDigits 2 4 tok) :
    readYear B date.year tok = .ok (typedYear date tok) := readNumber_of_digits h le_rfl

/-! ### The month -/

/-- The twelve entries of the table. -/
lemma monthStr_of_month {m : ℕ} (h : 1 ≤ m ∧ m ≤ 12) :
    ∃ s, monthStr ((m : ℤ) - 1) = .ok s ∧ IsWord s ∧ monthOfName? s = some m := by
  obtain ⟨h₁, h₂⟩ := h
  interval_cases m <;> exact ⟨_, rfl, by decide, by decide⟩

/-- The end of the text. -/
lemma takes_lineEnd (c : ℕ → Text) : Regex.Takes lineEnd c [] [] c :=
  Regex.takes_assert (fun _ => rfl) c

/-- One or two digits are a number to the reader. -/
lemma matchesAll_lMonthRegex_of_digits {tok : Text} (h : IsDigits 1 2 tok) (hne : tok ≠ []) :
    lMonthRegex.matchesAll tok = true := by
  obtain ⟨⟨hm, hn⟩, hdigit⟩ := h.resolve_left hne
  have hgroup := (Regex.takes_between_letter (t := []) hm hn hdigit
    (Or.inr fun _ hx => absurd hx (by simp)) (fun _ => [])).group 1
  have htakes := hgroup.seq (v := []) ((takes_lineEnd _).seq (v := []) (Regex.takes_empty _ []))
  rw [List.append_nil] at htakes
  exact Regex.matchesAll_of_takes rfl htakes

/-- Nothing else is. -/
lemma isDigits_of_matchesAll {tok : Text} (h : lMonthRegex.matchesAll tok = true) :
    tok ≠ [] ∧ IsDigits 1 2 tok := by
  obtain ⟨_, v, rfl, ⟨u, _, hu, ⟨_, _, rfl, rfl, rfl⟩, rfl⟩, rfl⟩ :=
    Regex.matches_of_matchesAll h
  have hdigits := (matches_digits (by decide)).mp hu
  rw [List.nil_append, List.append_nil, List.append_nil]
  exact ⟨List.ne_nil_of_length_pos hdigits.1.1, Or.inr hdigits⟩

/-- A word is none. -/
lemma matchesAll_lMonthRegex_of_word {tok : Text} (h : IsWord tok) :
    lMonthRegex.matchesAll tok = false := by
  rw [← Bool.not_eq_true]
  exact fun hall => (isDigits_of_matchesAll hall).2.not_isWord h

/-- The word as it is put into the text of the date. -/
def capitalized (tok : Text) : Text :=
  (tok.take 1).map Char.toUpper ++ ((tok.drop 1).take 2).map Char.toLower

lemma readMonth_of_word {default tok : Text} (h : IsWord tok) :
    readMonth B default tok = .ok (capitalized tok) := by
  rw [readMonth, if_neg (by rw [List.isEmpty_iff]; exact h.ne_nil),
    if_neg (by rw [matchesAll_lMonthRegex_of_word h]; decide), if_neg (by rw [h.1]; decide),
    capitalized]

/-- The letter case of a word makes no difference to the month it names. -/
lemma capitalized_of_word {tok : Text} (h : IsWord tok) :
    IsWord (capitalized tok) ∧ monthOfName? (capitalized tok) = monthOfName? tok := by
  obtain ⟨hlen, halpha⟩ := h
  obtain ⟨a, b, c, rfl⟩ := List.length_eq_three.mp hlen
  simp only [List.mem_cons, List.not_mem_nil, or_false, forall_eq_or_imp, forall_eq] at halpha
  obtain ⟨ha, hb, hc⟩ := halpha
  refine ⟨⟨rfl, ?_⟩, ?_⟩
  · simp [capitalized, ha, hb, hc]
  · simp only [monthOfName?, capitalized, List.take_succ_cons, List.take_zero, List.drop_succ_cons,
      List.drop_zero, List.map_cons, List.map_nil, List.cons_append, List.nil_append,
      Char.toLower_toUpper_eq_toLower, Char.toLower_toLower_eq_toLower]

lemma readMonth_of_digits {default tok : Text} (h : IsDigits 1 2 tok) (hne : tok ≠ []) :
    readMonth B default tok
      = if numeral tok > 12 then .error (.complain "month of the event date" tok default)
        else monthStr ((numeral tok : ℤ) - 1) := by
  rw [readMonth, if_neg (by rwa [List.isEmpty_iff]),
    if_pos (matchesAll_lMonthRegex_of_digits h hne), lexicalCast_of_digits h (by decide) hne]

/-- **What is read for the month**, by what its token stands for. -/
theorem readMonth_cases {date : Date} {default tok : Text}
    (hdefault : monthStr ((date.month : ℤ) - 1) = .ok default)
    (h : IsDigits 1 2 tok ∨ IsWord tok) :
    match typedMonth date tok with
    | .month m => ∃ s, readMonth B default tok = .ok s ∧ IsWord s ∧ monthOfName? s = some m
    | .noName => ∃ s, readMonth B default tok = .ok s ∧ IsWord s ∧ monthOfName? s = none
    | .tooGreat =>
        readMonth B default tok = .error (.complain "month of the event date" tok default)
    | .zero => readMonth B default tok = .error .outOfRange := by
  by_cases hne : tok = []
  · obtain ⟨s, hs, hword, hname⟩ := monthStr_of_month date.valid.2.1
    rw [hs] at hdefault
    subst hne
    simp only [typedMonth, if_true]
    cases hdefault
    exact ⟨_, rfl, hword, hname⟩
  · rcases h with h | h
    · have hdigit := List.all_eq_true.mpr (h.resolve_left hne).2
      rw [typedMonth, if_neg hne, if_pos hdigit, readMonth_of_digits h hne]
      by_cases hzero : numeral tok = 0
      · rw [if_pos hzero, hzero]
        rfl
      · by_cases hle : numeral tok ≤ 12
        · rw [if_neg hzero, if_pos hle, if_neg (by omega)]
          exact monthStr_of_month ⟨by omega, hle⟩
        · rw [if_neg hzero, if_neg hle, if_pos (by omega)]
    · obtain ⟨hword, hname⟩ := capitalized_of_word h
      rw [typedMonth, if_neg hne, if_neg h.not_all_isDigit]
      cases hm : monthOfName? tok with
      | none => exact ⟨_, readMonth_of_word h, hword, hname.trans hm⟩
      | some m => exact ⟨_, readMonth_of_word h, hword, hname.trans hm⟩

/-! ### The recomposed date and time -/

lemma recomposeDate_of_isDate {date : Date} {year m day : ℕ} {month : Text}
    (hm : monthOfName? month = some m) (h : IsDate year m day) :
    recomposeDate B date year month day = .ok ⟨year, m, day, h⟩ := by
  rw [recomposeDate, B.fromSimpleString_date year month day m h hm]

/-- The one exception that is caught. -/
lemma recomposeDate_of_badMonth (date : Date) {year day : ℕ} {month : Text}
    (h : B.fromSimpleString (dateText year month day) = .error .badMonth) :
    recomposeDate B date year month day
      = .error (.complain "event date" (dateText year month day) (B.showDate date)) := by
  rw [recomposeDate, h]

/-- The others escape. -/
lemma recomposeDate_of_raised (date : Date) {year day : ℕ} {month : Text} {x : BoostException}
    (h : B.fromSimpleString (dateText year month day) = .error x) (hne : x ≠ .badMonth) :
    recomposeDate B date year month day = .error (.raised x) := by
  rw [recomposeDate, h]
  cases x with
  | badMonth => exact absurd rfl hne
  | badYear => rfl
  | badDayOfMonth => rfl
  | badLexicalCast => rfl

/-- Three numbers that are no date make an exception escape. -/
lemma recomposeDate_of_not_isDate (date : Date) {year m day : ℕ} {month : Text}
    (hy : year < 2 ^ 16) (hd : day < 2 ^ 16) (hword : IsWord month)
    (hm : monthOfName? month = some m) (h : ¬ IsDate year m day) :
    ∃ x, recomposeDate B date year month day = .error (.raised x) := by
  have hbad : ∀ m', monthOfName? month = some m' → ¬ IsDate year m' day := fun m' hm' => by
    rw [hm, Option.some.injEq] at hm'
    exact hm' ▸ h
  obtain ⟨x, hx, hraise⟩ := B.fromSimpleString_fault year month day hy hd hword.1 hword.2 hbad
  refine ⟨x, recomposeDate_of_raised date hraise ?_⟩
  rintro rfl
  obtain ⟨⟩ | ⟨hnone⟩ := hx
  exact absurd (hnone.symm.trans hm) (by simp)

/-- A word that names no month is a fault. -/
lemma exists_fault_of_noName {year day : ℕ} {month : Text} (hy : year < 2 ^ 16)
    (hd : day < 2 ^ 16) (hword : IsWord month) (hm : monthOfName? month = none) :
    ∃ x, Fault year month day x ∧ B.fromSimpleString (dateText year month day) = .error x :=
  B.fromSimpleString_fault year month day hy hd hword.1 hword.2 fun m hm' =>
    absurd (hm.symm.trans hm') (by simp)

/-- It is complained about if it is the only one. -/
lemma recomposeDate_of_noName {date : Date} {year day : ℕ} {month : Text}
    (hy : year < 2 ^ 16) (hd : day < 2 ^ 16) (hword : IsWord month)
    (hm : monthOfName? month = none) (hyear : IsYear year) (hday : 1 ≤ day ∧ day ≤ 31) :
    recomposeDate B date year month day
      = .error (.complain "event date" (dateText year month day) (B.showDate date)) := by
  obtain ⟨x, hx, hraise⟩ := exists_fault_of_noName (B := B) hy hd hword hm
  refine recomposeDate_of_badMonth date ?_
  cases hx with
  | month _ => exact hraise
  | year h => exact absurd hyear h
  | day h => exact absurd hday h
  | dayOfMonth hm' _ _ => exact absurd (hm.symm.trans hm') (by simp)

/-- In any case it makes the reader complain or makes an exception escape. -/
lemma recomposeDate_error_of_noName (date : Date) {year day : ℕ} {month : Text}
    (hy : year < 2 ^ 16) (hd : day < 2 ^ 16) (hword : IsWord month)
    (hm : monthOfName? month = none) :
    ∃ x, recomposeDate B date year month day = .error x ∧ x ≠ .returned none := by
  obtain ⟨x, -, hraise⟩ := exists_fault_of_noName (B := B) hy hd hword hm
  by_cases hx : x = .badMonth
  · subst hx
    exact ⟨_, recomposeDate_of_badMonth date hraise, by simp [Exit.complain]⟩
  · exact ⟨_, recomposeDate_of_raised date hraise hx, by simp⟩

/-! ### The six tokens -/

variable {year month day hrs mins secs : Text}

/-- The date is recomposed of what its tokens stand for. -/
lemma readDate_tokens (h : DateTimeTokens year month day hrs mins secs) {date : Date}
    {default : Text} (hdefault : monthStr ((date.month : ℤ) - 1) = .ok default) :
    readDate B date [year, month, day, hrs, mins, secs]
      = (readMonth B default month).bind fun s =>
          (recomposeDate B date (typedYear date year) s (typedOr date.day day)).map
            fun date' => (date', [day, hrs, mins, secs]) := by
  have hyear := readYear_of_digits (B := B) date h.year
  have hday : readDay B date.day day = .ok (typedOr date.day day) :=
    readNumber_of_digits h.day (by decide)
  simp only [readDate, hdefault, atToken, advance, hyear, hday, bind, Except.bind]
  cases readMonth B default month with
  | error x => rfl
  | ok s =>
      cases hdate : recomposeDate B date (typedYear date year) s (typedOr date.day day) with
      | error x => simp only [hdate, Except.map]
      | ok date' => simp only [hdate, Except.map]

/-- **What is read for the date**, by what the token of its month stands for. -/
theorem readDate_cases (h : DateTimeTokens year month day hrs mins secs) (date : Date) :
    match typedMonth date month with
    | .month m => ∃ s, IsWord s ∧ monthOfName? s = some m ∧
        readDate B date [year, month, day, hrs, mins, secs]
          = (recomposeDate B date (typedYear date year) s (typedOr date.day day)).map
              fun date' => (date', [day, hrs, mins, secs])
    | .noName => ∃ s, IsWord s ∧ monthOfName? s = none ∧
        readDate B date [year, month, day, hrs, mins, secs]
          = (recomposeDate B date (typedYear date year) s (typedOr date.day day)).map
              fun date' => (date', [day, hrs, mins, secs])
    | .tooGreat => ∃ c, readDate B date [year, month, day, hrs, mins, secs]
        = .error (.returned (some c))
    | .zero => readDate B date [year, month, day, hrs, mins, secs] = .error .outOfRange := by
  obtain ⟨default, hdefault, -⟩ := monthStr_of_month date.valid.2.1
  have htokens := readDate_tokens (B := B) h hdefault
  have hcases := readMonth_cases (B := B) hdefault h.month
  generalize typedMonth date month = meaning at hcases ⊢
  cases meaning with
  | month m =>
      obtain ⟨s, hs, hword, hname⟩ := hcases
      rw [hs] at htokens
      exact ⟨s, hword, hname, htokens⟩
  | noName =>
      obtain ⟨s, hs, hword, hname⟩ := hcases
      rw [hs] at htokens
      exact ⟨s, hword, hname, htokens⟩
  | tooGreat =>
      rw [hcases] at htokens
      exact ⟨_, htokens⟩
  | zero =>
      rw [hcases] at htokens
      exact htokens

lemma readHours_of_digits (h : DateTimeTokens year month day hrs mins secs) (default : ℕ) :
    readHours B default hrs = .ok (typedOr default hrs) :=
  readNumber_of_digits h.hours (by decide)

/-- The time is recomposed of what its tokens stand for. -/
lemma readTime_of_digits (h : DateTimeTokens year month day hrs mins secs)
    (hmins : IsDigits 1 2 mins) (time : Duration) :
    readTime B time [day, hrs, mins, secs] = .ok (typedTime time hrs mins secs) := by
  have hhrs := readHours_of_digits (B := B) h (toUnsignedShort (hours time))
  have hmins' : readMinutes B (toUnsignedShort (minutes time)) mins
      = .ok (typedOr (toUnsignedShort (minutes time)) mins) :=
    readNumber_of_digits hmins (by decide)
  have hsecs : readSeconds B (toUnsignedShort (seconds time)) secs
      = .ok (typedOr (toUnsignedShort (seconds time)) secs) :=
    readNumber_of_digits h.seconds (by decide)
  simp only [readTime, atToken, advance, hhrs, hmins', hsecs, bind, Except.bind]
  rw [recomposeTime, B.durationFromString_time _ _ _
    (typedOr_lt (toUnsignedShort_lt _) h.hours (by decide))
    (typedOr_lt (toUnsignedShort_lt _) hmins (by decide))
    (typedOr_lt (toUnsignedShort_lt _) h.seconds (by decide)), typedTime]

/-- Minutes that are a word are complained about. -/
lemma readTime_of_word (h : DateTimeTokens year month day hrs mins secs) (hmins : IsWord mins)
    (time : Duration) : readTime B time [day, hrs, mins, secs]
      = .error (.complain "minutes of the event time" mins
          (decimal (toUnsignedShort (minutes time)))) := by
  have hhrs := readHours_of_digits (B := B) h (toUnsignedShort (hours time))
  have hmins' : readMinutes B (toUnsignedShort (minutes time)) mins
      = .error (.complain "minutes of the event time" mins
          (decimal (toUnsignedShort (minutes time)))) := readNumber_of_word hmins
  simp only [readTime, atToken, advance, hhrs, hmins', bind, Except.bind]

/-! ### How the reading ends -/

/-- Before the date is assigned everything is left as it was. -/
lemma parse_of_error {x : Exit}
    (h : readDate B date [year, month, day, hrs, mins, secs] = .error x) :
    parseEventDateTime B [year, month, day, hrs, mins, secs] date time = ⟨x, date, time⟩ := by
  rw [parseEventDateTime, if_neg (by simp), h]

lemma parse_of_digits (h : DateTimeTokens year month day hrs mins secs)
    (hmins : IsDigits 1 2 mins)
    (hdate : readDate B date [year, month, day, hrs, mins, secs]
      = .ok (date', [day, hrs, mins, secs])) (time : Duration) :
    parseEventDateTime B [year, month, day, hrs, mins, secs] date time
      = ⟨.returned none, date', typedTime time hrs mins secs⟩ := by
  rw [parseEventDateTime, if_neg (by simp), hdate]
  simp only [readTime_of_digits h hmins]

/-- Minutes that are a word are noticed when the date has been assigned. -/
lemma parse_of_word (h : DateTimeTokens year month day hrs mins secs) (hmins : IsWord mins)
    (hdate : readDate B date [year, month, day, hrs, mins, secs]
      = .ok (date', [day, hrs, mins, secs])) (time : Duration) :
    parseEventDateTime B [year, month, day, hrs, mins, secs] date time
      = ⟨.complain "minutes of the event time" mins (decimal (toUnsignedShort (minutes time))),
        date', time⟩ := by
  rw [parseEventDateTime, if_neg (by simp), hdate]
  simp only [readTime_of_word h hmins]

/-- The date that is read when its parts are a date of the calendar. -/
lemma readDate_of_isDate (h : DateTimeTokens year month day hrs mins secs) {m : ℕ}
    (hm : typedMonth date month = .month m)
    (hdate : IsDate (typedYear date year) m (typedOr date.day day)) :
    readDate B date [year, month, day, hrs, mins, secs]
      = .ok (⟨_, _, _, hdate⟩, [day, hrs, mins, secs]) := by
  have hcases := readDate_cases (B := B) h date
  rw [hm] at hcases
  obtain ⟨s, -, hname, hread⟩ := hcases
  rw [hread, recomposeDate_of_isDate hname hdate]
  rfl

end Sevmgr
