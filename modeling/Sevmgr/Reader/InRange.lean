import Sevmgr.Model.SampleBoost
import Sevmgr.Reader.Components

/-!
Reads out of range, on token lists of any length.

The reader goes through its list with an iterator that every component advances, and it takes the
name of a month from a table. The component that does not end the reading where its token is missing
is the month, and the bound that is not checked is the lower one of the table.

* `InRange`: a piece of the reading that stays in range, with its rules: `inRange_bind` for two
  pieces and `inRange_field` for a component and the step to the next.
* `readMonth_inRange_iff`: the month reads before its table exactly for zero.
* `readDate_inRange_iff`, `inRange_readTime`: the date and the time.
* `staysInRange_iff`: the whole of the reading.
-/

namespace Sevmgr

open DateTimeReader

variable {B : Boost} {β γ : Type}

/-! ### Rules -/

/-- The piece does not end in a read out of range. -/
def InRange (x : Except Exit β) : Prop := x ≠ .error .outOfRange

lemma inRange_ok (b : β) : InRange (.ok b : Except Exit β) := by
  simp [InRange]

lemma inRange_returned (c : Option Complaint) : InRange (.error (.returned c) : Except Exit β) := by
  simp [InRange]

/-- Two pieces one after the other. -/
lemma inRange_bind {x : Except Exit β} {f : β → Except Exit γ} (hx : InRange x)
    (hf : ∀ b, x = .ok b → InRange (f b)) : InRange (x >>= f) := by
  cases x with
  | error e =>
      intro he
      have herror : (.error e : Except Exit γ) = .error .outOfRange := he
      cases herror
      exact hx rfl
  | ok b => exact hf b rfl

/-- The first of two pieces. -/
lemma InRange.of_bind {x : Except Exit β} {f : β → Except Exit γ} (h : InRange (x >>= f)) :
    InRange x := by
  rintro rfl
  exact h rfl

/-- The token of a component is read only where there is one. -/
lemma inRange_atToken {read : Text → Except Exit β} (hread : ∀ tok, InRange (read tok))
    (itTok : List Text) : InRange (atToken itTok read) := by
  cases itTok with
  | nil => exact inRange_returned none
  | cons tok _ => exact hread tok

/-- A component that ends the reading where its token is missing can be stepped over. -/
lemma inRange_field {read : Text → Except Exit β} {f : β → List Text → Except Exit γ}
    (hread : ∀ tok, InRange (read tok)) (hf : ∀ b itTok, InRange (f b itTok))
    (itTok : List Text) :
    InRange (atToken itTok read >>= fun b => advance itTok >>= f b) := by
  refine inRange_bind (inRange_atToken hread itTok) fun b hb => ?_
  cases itTok with
  | nil => exact absurd hb (by simp [atToken])
  | cons tok itTok => exact hf b itTok

/-! ### Single components -/

lemma inRange_readNumber (subject : String) (adjust : ℕ → ℕ) (default : ℕ) (tok : Text) :
    InRange (readNumber B subject adjust default tok) := by
  rw [readNumber]
  split_ifs
  · exact inRange_ok _
  · cases B.lexicalCast tok with
    | none => exact inRange_returned _
    | some n => exact inRange_ok _

lemma inRange_recomposeDate (date : Date) (year : ℕ) (month : Text) (day : ℕ) :
    InRange (recomposeDate B date year month day) := by
  rw [recomposeDate]
  cases B.fromSimpleString (dateText year month day) with
  | ok date' => exact inRange_ok _
  | error x => cases x <;> simp [InRange, Exit.complain]

lemma inRange_recomposeTime (time : Duration) (hrs mins secs : ℕ) :
    InRange (recomposeTime B time hrs mins secs) := by
  rw [recomposeTime]
  cases B.durationFromString (timeText hrs mins secs) with
  | ok time' => exact inRange_ok _
  | error x => cases x <;> simp [InRange, Exit.complain]

/-- The two ways to write zero in one or two digits. -/
def IsZeroMonth (tok : Text) : Prop := tok = ['0'] ∨ tok = ['0', '0']

instance (tok : Text) : Decidable (IsZeroMonth tok) :=
  inferInstanceAs (Decidable (tok = ['0'] ∨ tok = ['0', '0']))

lemma isZeroMonth_iff {tok : Text} (h : IsDigits 1 2 tok) (hne : tok ≠ []) :
    IsZeroMonth tok ↔ numeral tok = 0 := by
  obtain ⟨⟨hm, hn⟩, hdigit⟩ := h.resolve_left hne
  rw [numeral_eq_zero hdigit]
  refine ⟨?_, fun hzero => ?_⟩
  · rintro (rfl | rfl) <;> simp
  · have hall := List.eq_replicate_of_mem hzero
    have hlen : tok.length = 1 ∨ tok.length = 2 := by omega
    rcases hlen with hlen | hlen <;> rw [hlen] at hall
    · exact Or.inl hall
    · exact Or.inr hall

lemma IsZeroMonth.isDigits {tok : Text} (h : IsZeroMonth tok) : tok ≠ [] ∧ IsDigits 1 2 tok := by
  rcases h with rfl | rfl <;> exact ⟨by simp, by decide⟩

/-- **The table of months** is read before its start for the number zero, and within its bounds
otherwise. -/
theorem readMonth_inRange_iff {default tok : Text} :
    InRange (readMonth B default tok) ↔ ¬ IsZeroMonth tok := by
  by_cases hall : lMonthRegex.matchesAll tok = true
  · obtain ⟨hne, hdigits⟩ := isDigits_of_matchesAll hall
    rw [isZeroMonth_iff hdigits hne, readMonth_of_digits hdigits hne]
    by_cases hgreat : numeral tok > 12
    · rw [if_pos hgreat]
      exact iff_of_true (inRange_returned _) (by omega)
    · rw [if_neg hgreat]
      by_cases hzero : numeral tok = 0
      · rw [hzero]
        exact iff_of_false (fun h => h rfl) (fun h => h rfl)
      · obtain ⟨s, hs, -⟩ := monthStr_of_month (m := numeral tok) ⟨by omega, by omega⟩
        rw [hs]
        exact iff_of_true (inRange_ok _) hzero
  · have hnot : ¬ IsZeroMonth tok := fun hzero =>
      hall (matchesAll_lMonthRegex_of_digits hzero.isDigits.2 hzero.isDigits.1)
    refine iff_of_true ?_ hnot
    rw [readMonth, if_neg hall]
    split_ifs
    · exact inRange_ok _
    · exact inRange_returned _
    · exact inRange_ok _

/-! ### The date and the time -/

/-- The first token is left out, or it is a number. -/
def YearUnderstood (B : Boost) (year : Text) : Prop := year = [] ∨ (B.lexicalCast year).isSome

/-- The token lists on which the reading goes out of range: a list that ends after its year, and a
month that is the number zero. -/
def ReadsOutOfRange (B : Boost) : List Text → Prop
  | [] => False
  | [year] => YearUnderstood B year
  | year :: month :: _ => YearUnderstood B year ∧ IsZeroMonth month

lemma readYear_of_understood {year : Text} (h : YearUnderstood B year) (default : ℕ) :
    ∃ y, readYear B default year = .ok y := by
  rw [readYear, readNumber]
  rcases h with rfl | hsome
  · exact ⟨default, rfl⟩
  · obtain ⟨n, hn⟩ := Option.isSome_iff_exists.mp hsome
    rw [hn]
    split_ifs
    · exact ⟨_, rfl⟩
    · exact ⟨_, rfl⟩

lemma readYear_of_not_understood {year : Text} (h : ¬ YearUnderstood B year) (default : ℕ) :
    ∃ c, readYear B default year = .error (.returned c) := by
  rw [YearUnderstood, not_or, Bool.not_eq_true, Option.isSome_eq_false_iff,
    Option.isNone_iff_eq_none] at h
  rw [readYear, readNumber, if_neg (by rw [List.isEmpty_iff]; exact h.1), h.2]
  exact ⟨_, rfl⟩

/-- What follows the month stays in range. -/
lemma inRange_readDay (date : Date) (year : ℕ) (month : Text) (itTok : List Text) :
    InRange (atToken itTok (readDay B date.day) >>= fun day =>
      recomposeDate B date year month day >>= fun date' => .ok (date', itTok)) :=
  inRange_bind (inRange_atToken (inRange_readNumber _ _ _) itTok) fun day _ =>
    inRange_bind (inRange_recomposeDate date year month day) fun _ _ => inRange_ok _

/-- The reading of a date of which the year has been read. -/
lemma readDate_of_year {date : Date} {default year month : Text} {y : ℕ} (rest : List Text)
    (hdefault : monthStr ((date.month : ℤ) - 1) = .ok default)
    (hy : readYear B date.year year = .ok y) :
    readDate B date (year :: month :: rest) = readMonth B default month >>= fun m =>
      atToken rest (readDay B date.day) >>= fun day => recomposeDate B date y m day >>= fun date' =>
        .ok (date', rest) := by
  simp only [readDate, hdefault, atToken, hy, advance, bind, Except.bind]

theorem readDate_inRange_iff (date : Date) {toks : List Text} (h : toks ≠ []) :
    InRange (readDate B date toks) ↔ ¬ ReadsOutOfRange B toks := by
  obtain ⟨default, hdefault, -⟩ := monthStr_of_month date.valid.2.1
  obtain ⟨year, toks, rfl⟩ := List.exists_cons_of_ne_nil h
  by_cases hyear : YearUnderstood B year
  · obtain ⟨y, hy⟩ := readYear_of_understood hyear date.year
    cases toks with
    | nil =>
        have hout : readDate B date [year] = .error .outOfRange := by
          simp only [readDate, hdefault, atToken, hy, advance, bind, Except.bind]
        exact iff_of_false (fun hin => hin hout) (not_not.mpr hyear)
    | cons month rest =>
        rw [readDate_of_year rest hdefault hy, ReadsOutOfRange, and_iff_right hyear,
          ← readMonth_inRange_iff]
        exact ⟨InRange.of_bind, fun hin =>
          inRange_bind hin fun m _ => inRange_readDay date y m rest⟩
  · obtain ⟨c, hc⟩ := readYear_of_not_understood hyear date.year
    have hreturned : readDate B date (year :: toks) = .error (.returned c) := by
      simp only [readDate, hdefault, atToken, hc, bind, Except.bind]
    have hnot : ¬ ReadsOutOfRange B (year :: toks) := by
      cases toks with
      | nil => exact hyear
      | cons month rest => exact fun hout => hyear hout.1
    rw [hreturned]
    exact iff_of_true (inRange_returned c) hnot

lemma inRange_readTime (time : Duration) {itTok : List Text} (h : itTok ≠ []) :
    InRange (readTime B time itTok) := by
  obtain ⟨tok, itTok, rfl⟩ := List.exists_cons_of_ne_nil h
  refine inRange_field (inRange_readNumber _ _ _) (fun hrs itTok => ?_) itTok
  refine inRange_field (inRange_readNumber _ _ _) (fun mins itTok => ?_) itTok
  refine inRange_bind (inRange_atToken (inRange_readNumber _ _ _) itTok) fun secs _ => ?_
  exact inRange_recomposeTime time hrs mins secs

lemma ok_of_bind {x : Except Exit β} {f : β → Except Exit γ} {c : γ} (h : x >>= f = .ok c) :
    ∃ b, x = .ok b ∧ f b = .ok c := by
  cases x with
  | error e => cases (h : (.error e : Except Exit γ) = .ok c)
  | ok b => exact ⟨b, rfl, h⟩

/-- The date is completed with a token of the list. -/
lemma ne_nil_of_readDate {date date' : Date} {toks itTok : List Text}
    (h : readDate B date toks = .ok (date', itTok)) : itTok ≠ [] := by
  obtain ⟨default, hdefault, -⟩ := monthStr_of_month date.valid.2.1
  rcases toks with _ | ⟨year, toks⟩
  · simp [readDate, hdefault, atToken, bind, Except.bind] at h
  · cases hy : readYear B date.year year with
    | error x => simp [readDate, hdefault, atToken, hy, bind, Except.bind] at h
    | ok y =>
        rcases toks with _ | ⟨month, rest⟩
        · simp [readDate, hdefault, atToken, hy, advance, bind, Except.bind] at h
        · rw [readDate_of_year rest hdefault hy] at h
          obtain ⟨_, -, h⟩ := ok_of_bind h
          obtain ⟨day, hday, h⟩ := ok_of_bind h
          obtain ⟨_, -, h⟩ := ok_of_bind h
          cases h
          rintro rfl
          exact absurd hday (by simp [atToken])

/-! ### The whole reading -/

/-- No token is read beyond the list, the iterator does not pass its end, and the table of months is
read within its bounds. -/
def StaysInRange (B : Boost) (toks : List Text) (date : Date) (time : Duration) : Prop :=
  (parseEventDateTime B toks date time).exit ≠ .outOfRange

/-- **When the reader stays in range**: on every list but those that end after a year that is
understood, or have such a year and a month that is the number zero. -/
theorem staysInRange_iff (B : Boost) (toks : List Text) (date : Date) (time : Duration) :
    StaysInRange B toks date time ↔ ¬ ReadsOutOfRange B toks := by
  rw [StaysInRange, parseEventDateTime]
  by_cases hnil : toks = []
  · subst hnil
    exact iff_of_true (by simp) id
  · rw [if_neg (by rwa [List.isEmpty_iff]), ← readDate_inRange_iff date hnil]
    cases hdate : readDate B date toks with
    | error x => simp [InRange]
    | ok r =>
        obtain ⟨date', itTok⟩ := r
        have htime := inRange_readTime (B := B) time (ne_nil_of_readDate hdate)
        refine iff_of_true ?_ (inRange_ok _)
        cases hread : readTime B time itTok with
        | error x =>
            rw [hread] at htime
            simp only [hread]
            exact fun hx => htime (congrArg _ hx)
        | ok time' => simp [hread]

/-- The month of a line typed as zero reads before the table, and a list of one token is left behind
by its iterator. -/
theorem not_staysInRange_zero :
    ¬ StaysInRange (sampleBoost true) (extractTokenListForDateTime ["2011-00-14".toList,
        "00:00:00".toList]) ⟨2011, 1, 1, by decide⟩ 0 ∧
      ¬ StaysInRange (sampleBoost true) ["2011".toList] ⟨2011, 1, 1, by decide⟩ 0 :=
  ⟨fun h => h (by decide +kernel), fun h => h (by decide +kernel)⟩

end Sevmgr
