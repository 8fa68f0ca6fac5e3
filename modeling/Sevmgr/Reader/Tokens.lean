import Sevmgr.Model.DateTimeReader

/-!
The tokens of a date-time.

* `IsDigits`, `IsWord`: the texts that the groups of the regular expression may record.
* `DateTimeTokens`: six tokens of these forms.
* `isDateTimeTokens_extract`: the tokens that `extractTokenListForDateTime` takes of any line are
  such.
-/

namespace Sevmgr

open DateTimeReader

/-! ### Digits and words -/

/-- Nothing, or between `m` and `n` digits. -/
def IsDigits (m n : ℕ) (tok : Text) : Prop :=
  tok = [] ∨ (m ≤ tok.length ∧ tok.length ≤ n) ∧ ∀ c ∈ tok, c.isDigit = true

/-- Three letters. -/
def IsWord (tok : Text) : Prop := tok.length = 3 ∧ ∀ c ∈ tok, c.isAlpha = true

instance (m n : ℕ) (tok : Text) : Decidable (IsDigits m n tok) :=
  decidable_of_iff (tok = [] ∨ (m ≤ tok.length ∧ tok.length ≤ n) ∧ tok.all Char.isDigit)
    (by rw [IsDigits, List.all_eq_true])

instance (tok : Text) : Decidable (IsWord tok) :=
  decidable_of_iff (tok.length = 3 ∧ tok.all Char.isAlpha) (by rw [IsWord, List.all_eq_true])

lemma IsWord.ne_nil {tok : Text} (h : IsWord tok) : tok ≠ [] := by
  rintro rfl
  exact absurd h.1 (by simp)

/-- No token is both. -/
lemma IsDigits.not_isWord {m n : ℕ} {tok : Text} (h : IsDigits m n tok) : ¬ IsWord tok := by
  intro hword
  rcases h with rfl | ⟨-, hdigit⟩
  · exact hword.ne_nil rfl
  · obtain ⟨c, hc⟩ := List.exists_mem_of_ne_nil tok hword.ne_nil
    have hboth := isAlpha_of_isDigit (hdigit c hc)
    rw [hword.2 c hc] at hboth
    exact absurd hboth (by decide)

lemma IsWord.not_all_isDigit {tok : Text} (h : IsWord tok) : ¬ tok.all Char.isDigit = true :=
  fun hall => IsDigits.not_isWord (m := 3) (n := 3)
    (Or.inr ⟨⟨h.1.ge, h.1.le⟩, List.all_eq_true.mp hall⟩) h

lemma toNat_of_isDigit {c : Char} (h : c.isDigit = true) : '0'.toNat ≤ c.toNat ∧ c.toNat ≤ 57 := by
  simp only [Char.isDigit, Bool.and_eq_true, decide_eq_true_eq, UInt32.le_iff_toNat_le,
    ge_iff_le] at h
  have h9 : '9'.val.toNat = 57 := rfl
  have h0 : '0'.val.toNat = '0'.toNat := rfl
  have hval : c.toNat = c.val.toNat := rfl
  omega

/-- The place value of the first digit. -/
lemma numeral_cons (c : Char) (s : Text) :
    numeral (c :: s) = 10 ^ s.length * (c.toNat - '0'.toNat) + numeral s := by
  rw [numeral, Nat.ofDigitChars_cons, Nat.ofDigitChars_eq_ofDigitChars_zero, numeral, Nat.mul_zero,
    Nat.zero_add]

/-- The number of `n` digits is less than `10 ^ n`. -/
lemma numeral_lt {s : Text} (h : ∀ c ∈ s, c.isDigit = true) : numeral s < 10 ^ s.length := by
  induction s with
  | nil => decide
  | cons c s ih =>
      obtain ⟨hc, hs⟩ := List.forall_mem_cons.mp h
      have h0 : '0'.toNat = 48 := rfl
      have hdigit := toNat_of_isDigit hc
      have hrest := ih hs
      calc numeral (c :: s)
          = 10 ^ s.length * (c.toNat - '0'.toNat) + numeral s := numeral_cons c s
        _ ≤ 10 ^ s.length * 9 + numeral s := by
            gcongr
            omega
        _ < 10 ^ s.length * 10 := by omega
        _ = 10 ^ (c :: s).length := by rw [List.length_cons, pow_succ]

/-- A number of digits is zero when all of them are. -/
lemma numeral_eq_zero {s : Text} (h : ∀ c ∈ s, c.isDigit = true) :
    numeral s = 0 ↔ ∀ c ∈ s, c = '0' := by
  induction s with
  | nil => simp [numeral]
  | cons c s ih =>
      obtain ⟨hc, hs⟩ := List.forall_mem_cons.mp h
      have hdigit := toNat_of_isDigit hc
      have hzero : c.toNat - '0'.toNat = 0 ↔ c = '0' := by
        rw [← Char.toNat_inj]
        omega
      rw [numeral_cons, Nat.add_eq_zero_iff, Nat.mul_eq_zero, List.forall_mem_cons, ih hs,
        ← hzero]
      simp

lemma IsDigits.numeral_lt {m n : ℕ} {tok : Text} (h : IsDigits m n tok) :
    numeral tok < 10 ^ n := by
  rcases h with rfl | ⟨⟨-, hlen⟩, hdigit⟩
  · exact Nat.pow_pos (by decide)
  · exact (Sevmgr.numeral_lt hdigit).trans_le (Nat.pow_le_pow_right (by decide) hlen)

/-! ### What the groups record -/

/-- Six tokens, each of the form of its group. -/
structure DateTimeTokens (year month day hours minutes seconds : Text) : Prop where
  year : IsDigits 2 4 year
  month : IsDigits 1 2 month ∨ IsWord month
  day : IsDigits 1 2 day
  hours : IsDigits 1 2 hours
  minutes : IsDigits 1 2 minutes ∨ IsWord minutes
  seconds : IsDigits 1 2 seconds

/-- The tokens form a list of six. -/
def IsDateTimeTokens (toks : List Text) : Prop :=
  ∃ year month day hours minutes seconds, toks = [year, month, day, hours, minutes, seconds] ∧
    DateTimeTokens year month day hours minutes seconds

lemma matches_digits {m n : ℕ} (hmn : m ≤ n) {w : Text} :
    (digits m n).Matches w ↔ (m ≤ w.length ∧ w.length ≤ n) ∧ ∀ c ∈ w, c.isDigit = true :=
  Regex.matches_between_letter hmn

lemma matches_wordOrNumber {w : Text} (h : wordOrNumber.Matches w) :
    IsDigits 1 2 w ∨ IsWord w := by
  rcases h with h | h
  · exact Or.inr (Regex.matches_times_letter.mp h)
  · exact Or.inl (Or.inr ((matches_digits (by decide)).mp h))

/-- The groups of the expression. -/
lemma records_lRegEx {i : ℕ} {w : Text} (h : lRegEx.Records i w) :
    (i = 1 ∧ (digits 2 4).Matches w) ∨ (i = 2 ∧ wordOrNumber.Matches w) ∨
      (i = 3 ∧ (digits 1 2).Matches w) ∨ (i = 4 ∧ (digits 1 2).Matches w) ∨
      (i = 5 ∧ wordOrNumber.Matches w) ∨ (i = 6 ∧ (digits 1 2).Matches w) := by
  have hnone : ∀ m n, ¬ (digits m n).Records i w := fun m n => Regex.not_records_between _ m n i w
  have hword : ¬ wordOrNumber.Records i w := by
    rintro (h | h)
    · exact Regex.not_records_times _ 3 i w h
    · exact hnone 1 2 h
  simpa only [lRegEx, Regex.seqs, Regex.opt, Regex.Records, lineStart, lineEnd, spaces, hnone,
    hword, or_false, false_or] using h

/-- **The tokens of a line** are six tokens of the forms of the groups. -/
theorem isDateTimeTokens_extract (line : List Text) :
    IsDateTimeTokens (extractTokenListForDateTime line) := by
  rw [extractTokenListForDateTime, extractTokenList]
  cases hsearch : lRegEx.search (DateTimeReader.toString line) with
  | none =>
      have hnil : ∀ m n, IsDigits m n [] := fun _ _ => Or.inl rfl
      exact ⟨[], [], [], [], [], [], rfl, hnil 2 4, Or.inl (hnil 1 2), hnil 1 2, hnil 1 2,
        Or.inl (hnil 1 2), hnil 1 2⟩
  | some what =>
      refine ⟨what.captures 1, what.captures 2, what.captures 3, what.captures 4, what.captures 5,
        what.captures 6, rfl, ?_⟩
      have hdigits : ∀ i m n, m ≤ n → (lRegEx.Records i (what.captures i) →
          (digits m n).Matches (what.captures i)) → IsDigits m n (what.captures i) :=
        fun i m n hmn hrec => (Regex.records_of_search hsearch i).imp_right fun hi =>
          (matches_digits hmn).mp (hrec hi)
      have hwords : ∀ i, (lRegEx.Records i (what.captures i) →
          wordOrNumber.Matches (what.captures i)) →
          IsDigits 1 2 (what.captures i) ∨ IsWord (what.captures i) := fun i hrec =>
        (Regex.records_of_search hsearch i).elim (fun hi => Or.inl (Or.inl hi))
          fun hi => matches_wordOrNumber (hrec hi)
      exact ⟨hdigits 1 2 4 (by decide) fun hr => by simpa using records_lRegEx hr,
        hwords 2 fun hr => by simpa using records_lRegEx hr,
        hdigits 3 1 2 (by decide) fun hr => by simpa using records_lRegEx hr,
        hdigits 4 1 2 (by decide) fun hr => by simpa using records_lRegEx hr,
        hwords 5 fun hr => by simpa using records_lRegEx hr,
        hdigits 6 1 2 (by decide) fun hr => by simpa using records_lRegEx hr⟩

lemma dateTimeTokens_of_extract_six {line : List Text} {year month day hours minutes seconds : Text}
    (h : extractTokenListForDateTime line = [year, month, day, hours, minutes, seconds]) :
    DateTimeTokens year month day hours minutes seconds := by
  obtain ⟨_, _, _, _, _, _, heq, htoks⟩ := isDateTimeTokens_extract line
  cases h.symm.trans heq
  exact htoks

end Sevmgr
