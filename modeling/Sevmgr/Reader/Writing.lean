import Sevmgr.Reader.Tokens

/-!
The ways in which a date and a time of day are written for the reader.

* `padded`: a number in a given count of digits.
* `TimeOfDay`, `Writing`: a time of day in whole seconds, and a way of writing it after a date.
* `splitOnBlanks`: the line as it is handed to the reader.
* `toString_splitOnBlanks`: where all blanks are single, `toString` gives the text back.
-/

namespace Sevmgr

open DateTimeReader

/-! ### Numbers -/

/-- The last `k` digits of a number. -/
def padded : ℕ → ℕ → Text
  | 0, _ => []
  | k + 1, n => padded k (n / 10) ++ [Nat.digitChar (n % 10)]

@[simp] lemma length_padded (k n : ℕ) : (padded k n).length = k := by
  induction k generalizing n with
  | zero => rfl
  | succ k ih => rw [padded, List.length_append, ih, List.length_singleton]

lemma isDigit_of_mem_padded {k n : ℕ} {c : Char} (h : c ∈ padded k n) : c.isDigit = true := by
  induction k generalizing n with
  | zero => exact absurd h List.not_mem_nil
  | succ k ih =>
      rw [padded, List.mem_append, List.mem_singleton] at h
      rcases h with h | rfl
      · exact ih h
      · rw [Nat.isDigit_digitChar, decide_eq_true_eq]
        omega

/-- A number that fits is read back. -/
lemma numeral_padded {k n : ℕ} (h : n < 10 ^ k) : numeral (padded k n) = n := by
  induction k generalizing n with
  | zero =>
      rw [pow_zero] at h
      obtain rfl : n = 0 := by omega
      rfl
  | succ k ih =>
      have hdiv : n / 10 < 10 ^ k := by
        rw [pow_succ] at h
        omega
      have hfirst := ih hdiv
      rw [numeral] at hfirst
      rw [numeral, padded, Nat.ofDigitChars_append, hfirst,
        Nat.ofDigitChars_cons_digitChar_of_lt_ten (by omega), Nat.ofDigitChars_nil]
      omega

/-! ### Writings -/

/-- A time of day, in whole seconds. -/
structure TimeOfDay where
  hours : ℕ
  minutes : ℕ
  seconds : ℕ
  valid : hours < 24 ∧ minutes < 60 ∧ seconds < 60
deriving DecidableEq

/-- The time of day as it is kept, in microseconds. -/
def TimeOfDay.duration (time : TimeOfDay) : Duration :=
  3600000000 * time.hours + 60000000 * time.minutes + 1000000 * time.seconds

/-- What may stand between the fields of a date. -/
def dateSeparators : List Text := [['-'], ['/'], [' '], []]

/-- What may stand between a date and a time. -/
def gaps : List Text := [[' '], []]

/-- What may stand between the fields of a time. -/
def timeSeparators : List Text := [[':'], ['-'], [' '], []]

/-- A way of writing a date with a time after it: how the month is written, as two digits or as its
name in some letter case, and what stands between the fields. -/
structure Writing (date : Date) where
  month : Text
  afterYear : Text
  afterMonth : Text
  afterDay : Text
  afterHours : Text
  afterMinutes : Text
  month_valid : month = padded 2 date.month ∨ monthOfName? month = some date.month
  afterYear_mem : afterYear ∈ dateSeparators
  afterMonth_mem : afterMonth ∈ dateSeparators
  afterDay_mem : afterDay ∈ gaps
  afterHours_mem : afterHours ∈ timeSeparators
  afterMinutes_mem : afterMinutes ∈ timeSeparators

/-- The text of one field. -/
def IsField (w : Text) : Prop := w ≠ [] ∧ ∀ c ∈ w, c.isAlphanum = true

lemma isField_padded (k n : ℕ) : IsField (padded (k + 1) n) := by
  refine ⟨fun hnil => ?_, fun c hc => ?_⟩
  · have hlen := length_padded (k + 1) n
    rw [hnil] at hlen
    exact absurd hlen (by simp)
  · rw [Char.isAlphanum, isDigit_of_mem_padded hc, Bool.or_true]

/-- The names of months are words. -/
lemma isWord_of_monthOfName? {name : Text} {m : ℕ} (h : monthOfName? name = some m) :
    IsWord name := by
  rw [monthOfName?, Option.map_eq_some_iff] at h
  obtain ⟨i, hi, -⟩ := h
  obtain ⟨hlt, hname, -⟩ := List.findIdx?_eq_some_iff_getElem.mp hi
  have hwords : ∀ name' ∈ monthNames, IsWord name' := by decide
  obtain ⟨hlen, halpha⟩ := hwords _ (List.getElem_mem hlt)
  rw [of_decide_eq_true hname] at hlen halpha
  refine ⟨by rwa [List.length_map] at hlen, fun c hc => ?_⟩
  rw [← Char.isAlpha_toLower_eq_isAlpha]
  exact halpha _ (List.mem_map_of_mem hc)

/-- The month is two digits or a word. -/
lemma Writing.month_cases {date : Date} (w : Writing date) :
    (w.month.length = 2 ∧ ∀ c ∈ w.month, c.isDigit = true) ∨ IsWord w.month := by
  rcases w.month_valid with h | h
  · rw [h]
    exact Or.inl ⟨length_padded 2 _, fun c => isDigit_of_mem_padded⟩
  · exact Or.inr (isWord_of_monthOfName? h)

lemma Writing.isField_month {date : Date} (w : Writing date) : IsField w.month := by
  rcases w.month_cases with ⟨hlen, hdigit⟩ | hword
  · refine ⟨List.ne_nil_of_length_pos (by omega), fun c hc => ?_⟩
    rw [Char.isAlphanum, hdigit c hc, Bool.or_true]
  · refine ⟨hword.ne_nil, fun c hc => ?_⟩
    rw [Char.isAlphanum, hword.2 c hc, Bool.true_or]

/-- The text that is written. -/
def Writing.text {date : Date} (w : Writing date) (time : TimeOfDay) : Text :=
  padded 4 date.year ++ (w.afterYear ++ (w.month ++ (w.afterMonth ++ (padded 2 date.day
    ++ (w.afterDay ++ (padded 2 time.hours ++ (w.afterHours ++ (padded 2 time.minutes
      ++ (w.afterMinutes ++ padded 2 time.seconds)))))))))

/-! ### Blanks -/

/-- The pieces of a line between its blanks. -/
def splitOnBlanks (s : Text) : List Text := (s.splitOn ' ').filter (· ≠ [])

/-- All blanks of a line are single and none is at an end. -/
def SingleBlanks (s : Text) : Prop := ∀ piece ∈ s.splitOn ' ', piece ≠ []

/-- The counter of `toString` does not come round to zero. -/
lemma toStringFrom_eq {idx : ℕ} {toks : List Text} (hidx : 0 < idx)
    (h : idx + toks.length ≤ 2 ^ 16) : toStringFrom idx toks = toks.flatMap (' ' :: ·) := by
  induction toks generalizing idx with
  | nil => rfl
  | cons tok toks ih =>
      rw [List.length_cons] at h
      have hnext : (idx + 1) % 2 ^ 16 = idx + 1 ∨ toks = [] := by
        by_cases htoks : toks = []
        · exact Or.inr htoks
        · have := List.length_pos_iff.mpr htoks
          exact Or.inl (Nat.mod_eq_of_lt (by omega))
      rw [toStringFrom, if_pos (by omega), List.flatMap_cons]
      rcases hnext with hnext | rfl
      · rw [hnext, ih (by omega) (by omega)]
        rfl
      · simp [toStringFrom]

lemma intercalate_blank (tok : Text) (toks : List Text) :
    [' '].intercalate (tok :: toks) = tok ++ toks.flatMap (' ' :: ·) := by
  induction toks generalizing tok with
  | nil => simp
  | cons tok' toks ih => rw [List.intercalate_cons_cons, ih, List.flatMap_cons]; simp

/-- **A line with single blanks** is put together again as it was. -/
theorem toString_splitOnBlanks {s : Text} (h : SingleBlanks s) (hlen : s.length < 2 ^ 16) :
    DateTimeReader.toString (splitOnBlanks s) = s := by
  have hall : splitOnBlanks s = s.splitOn ' ' := List.filter_eq_self.mpr fun piece hpiece =>
    decide_eq_true (h piece hpiece)
  obtain ⟨tok, toks, htoks⟩ := List.exists_cons_of_ne_nil (List.splitOn_ne_nil ' ' s)
  have hs : tok ++ toks.flatMap (' ' :: ·) = s := by
    rw [← intercalate_blank, ← htoks, List.intercalate_splitOn]
  have hcount : toks.length ≤ s.length := by
    rw [← hs, List.length_append, List.length_flatMap]
    have hone : ∀ tok' ∈ toks, 1 ≤ (' ' :: tok').length := fun _ _ => by simp
    calc toks.length = (toks.map fun _ => 1).sum := by simp
      _ ≤ (toks.map fun tok' => (' ' :: tok').length).sum := List.sum_le_sum hone
      _ ≤ _ := Nat.le_add_left _ _
  calc DateTimeReader.toString (splitOnBlanks s)
      = tok ++ toStringFrom 1 toks := by
        rw [hall, htoks, DateTimeReader.toString, toStringFrom, if_neg (by simp)]
        rfl
    _ = tok ++ toks.flatMap (' ' :: ·) := by rw [toStringFrom_eq (by decide) (by omega)]
    _ = s := hs

lemma singleBlanks_of_notMem {a : Text} (hne : a ≠ []) (ha : ' ' ∉ a) : SingleBlanks a := by
  rw [SingleBlanks, List.splitOn_eq_singleton ha]
  exact fun piece hpiece => List.mem_singleton.mp hpiece ▸ hne

lemma SingleBlanks.blank {a b : Text} (h : SingleBlanks b) (hne : a ≠ []) (ha : ' ' ∉ a) :
    SingleBlanks (a ++ ' ' :: b) := by
  rw [SingleBlanks, List.splitOn_append_cons_self_of_not_mem ha]
  exact List.forall_mem_cons.mpr ⟨hne, h⟩

lemma SingleBlanks.append {a b : Text} (h : SingleBlanks b) (ha : ' ' ∉ a) :
    SingleBlanks (a ++ b) := by
  induction a with
  | nil => exact h
  | cons x a ih =>
      rw [List.mem_cons, not_or] at ha
      obtain ⟨hx, ha⟩ := ha
      obtain ⟨piece, pieces, hpieces⟩ :=
        List.exists_cons_of_ne_nil (List.splitOn_ne_nil ' ' (a ++ b))
      have hrest := ih ha
      rw [SingleBlanks, hpieces] at hrest
      rw [SingleBlanks, List.cons_append, List.splitOn_cons_eq_if_modifyHead,
        if_neg (by simpa using Ne.symm hx), hpieces, List.modifyHead_cons]
      exact List.forall_mem_cons.mpr ⟨by simp, fun p hp => hrest p (List.mem_cons_of_mem _ hp)⟩

lemma IsField.notMem_blank {w : Text} (h : IsField w) : ' ' ∉ w := fun hmem =>
  absurd (h.2 _ hmem) (by decide)

/-- A field, what stands after it, and the rest. -/
lemma SingleBlanks.field {a sep b : Text} (h : SingleBlanks b) (ha : IsField a)
    (hsep : sep = [' '] ∨ ' ' ∉ sep) : SingleBlanks (a ++ (sep ++ b)) := by
  rcases hsep with rfl | hsep
  · exact h.blank ha.1 ha.notMem_blank
  · exact (h.append hsep).append ha.notMem_blank

lemma Writing.singleBlanks_text {date : Date} (w : Writing date) (time : TimeOfDay) :
    SingleBlanks (w.text time) := by
  have hdate : ∀ sep ∈ dateSeparators, sep = [' '] ∨ ' ' ∉ sep := by decide
  have hgap : ∀ sep ∈ gaps, sep = [' '] ∨ ' ' ∉ sep := by decide
  have htime : ∀ sep ∈ timeSeparators, sep = [' '] ∨ ' ' ∉ sep := by decide
  have hseconds := isField_padded 1 time.seconds
  have hminutes := (singleBlanks_of_notMem hseconds.1 hseconds.notMem_blank).field
    (isField_padded 1 time.minutes) (htime _ w.afterMinutes_mem)
  have hhours := hminutes.field (isField_padded 1 time.hours) (htime _ w.afterHours_mem)
  have hday := hhours.field (isField_padded 1 date.day) (hgap _ w.afterDay_mem)
  have hmonth := hday.field w.isField_month (hdate _ w.afterMonth_mem)
  exact hmonth.field (isField_padded 3 date.year) (hdate _ w.afterYear_mem)

lemma Writing.length_text {date : Date} (w : Writing date) (time : TimeOfDay) :
    (w.text time).length ≤ 20 := by
  have hdate : ∀ sep ∈ dateSeparators, sep.length ≤ 1 := by decide
  have hgap : ∀ sep ∈ gaps, sep.length ≤ 1 := by decide
  have htime : ∀ sep ∈ timeSeparators, sep.length ≤ 1 := by decide
  have h₁ := hdate _ w.afterYear_mem
  have h₂ := hdate _ w.afterMonth_mem
  have h₃ := hgap _ w.afterDay_mem
  have h₄ := htime _ w.afterHours_mem
  have h₅ := htime _ w.afterMinutes_mem
  have hmonth : w.month.length ≤ 3 := by
    rcases w.month_cases with ⟨hlen, -⟩ | hword
    · omega
    · exact hword.1.le
  simp only [Writing.text, List.length_append, length_padded]
  omega

/-- What `toString` makes of the line is the text that was written. -/
lemma Writing.toString_text {date : Date} (w : Writing date) (time : TimeOfDay) :
    DateTimeReader.toString (splitOnBlanks (w.text time)) = w.text time :=
  toString_splitOnBlanks (w.singleBlanks_text time) ((w.length_text time).trans_lt (by decide))

end Sevmgr
