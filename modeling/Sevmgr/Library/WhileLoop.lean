import Mathlib.Tactic

/-!
While loops with a bound on their rounds.

A `WhileLoop` is a test and a body on the variables of the loop, together with a number of
rounds that every round decreases; the loop is executed by structural recursion on that
number, which never shows.

* `exec_of_cond`, `exec_of_not_cond`: the loop unrolls as a `while` does.
* `cond_exec`: the test fails when the loop is left.
* `exec_invariant` and `exec_induction`: the rules for what holds at the exit, and for what relates
  it to the entry.
* `exec_related`: two loops that run in step end in related states.
* `MakesRounds`: the number of rounds the loop makes, counted from the first by `makesRounds_succ`.
-/

/-- `while (cond s) s = body s`, where `rounds s` bounds the rounds still to come. -/
structure WhileLoop (S : Type*) where
  cond : S → Bool
  body : S → S
  rounds : S → ℕ
  decreases : ∀ s, cond s = true → rounds (body s) < rounds s

namespace WhileLoop

variable {S T : Type*} (L : WhileLoop S)

/-- At most `n` rounds. -/
def iterate : ℕ → S → S
  | 0, s => s
  | n + 1, s => if L.cond s then iterate n (L.body s) else s

/-- The variables at the exit of the loop. -/
def exec (s : S) : S := L.iterate (L.rounds s) s

/-- Once the bound is respected it has no influence. -/
lemma iterate_eq_iterate {n m : ℕ} {s : S} (hn : L.rounds s ≤ n) (hm : L.rounds s ≤ m) :
    L.iterate n s = L.iterate m s := by
  induction n generalizing m s with
  | zero =>
      have hc : L.cond s = false := by
        by_contra hc
        have := L.decreases s (by simpa using hc)
        omega
      cases m with
      | zero => rfl
      | succ m => simp [iterate, hc]
  | succ n ih =>
      by_cases hc : L.cond s
      · have hd := L.decreases s hc
        obtain ⟨m, rfl⟩ := Nat.exists_eq_add_of_lt (lt_of_le_of_lt (Nat.zero_le _) (hd.trans_le hm))
        simp only [iterate, hc, if_true, Nat.zero_add]
        exact ih (by omega) (by omega)
      · cases m with
        | zero => simp [iterate, hc]
        | succ m => simp [iterate, hc]

lemma exec_of_cond {s : S} (hc : L.cond s = true) : L.exec s = L.exec (L.body s) := by
  have hd := L.decreases s hc
  rw [exec, L.iterate_eq_iterate (m := L.rounds s + 1) le_rfl (Nat.le_succ _), iterate, if_pos hc,
    exec]
  exact L.iterate_eq_iterate hd.le le_rfl

lemma exec_of_not_cond {s : S} (hc : L.cond s = false) : L.exec s = s := by
  rw [exec]
  cases L.rounds s with
  | zero => rfl
  | succ n => simp [iterate, hc]

/-- What relates the exit to the entry: it holds of a loop left at once, and it is carried over
from the rest of the loop to the whole of it. -/
theorem exec_induction {P : S → S → Prop} (hdone : ∀ s, L.cond s = false → P s s)
    (hround : ∀ s t, L.cond s = true → P (L.body s) t → P s t) (s : S) : P s (L.exec s) := by
  induction hn : L.rounds s using Nat.strong_induction_on generalizing s with
  | _ n ih =>
      by_cases hc : L.cond s
      · rw [L.exec_of_cond hc]
        exact hround s _ hc (ih _ (hn ▸ L.decreases s hc) _ rfl)
      · rw [Bool.not_eq_true] at hc
        rw [L.exec_of_not_cond hc]
        exact hdone s hc

/-- The test fails at the exit. -/
lemma cond_exec (s : S) : L.cond (L.exec s) = false :=
  L.exec_induction (P := fun _ t => L.cond t = false) (fun _ h => h) (fun _ _ _ h => h) s

/-- The invariant rule. -/
theorem exec_invariant {I : S → Prop} (hI : ∀ s, L.cond s = true → I s → I (L.body s)) {s : S}
    (hs : I s) : I (L.exec s) :=
  L.exec_induction (P := fun s t => I s → I t) (fun _ _ h => h)
    (fun s _ hc ih h => ih (hI s hc h)) s hs

/-- Two loops that run in step end in related states. -/
theorem exec_related (M : WhileLoop T) {R : S → T → Prop}
    (hcond : ∀ s t, R s t → L.cond s = M.cond t)
    (hbody : ∀ s t, L.cond s = true → R s t → R (L.body s) (M.body t)) {s : S} {t : T}
    (h : R s t) : R (L.exec s) (M.exec t) := by
  induction hn : L.rounds s using Nat.strong_induction_on generalizing s t with
  | _ n ih =>
      by_cases hc : L.cond s
      · rw [L.exec_of_cond hc, M.exec_of_cond (hcond s t h ▸ hc)]
        exact ih _ (hn ▸ L.decreases s hc) (hbody s t hc h) rfl
      · rw [Bool.not_eq_true] at hc
        rw [L.exec_of_not_cond hc, M.exec_of_not_cond (hcond s t h ▸ hc)]
        exact h

/-! ### Counting the rounds -/

/-- The loop makes `n` rounds from `s`: the test holds before each of them and fails after. -/
def MakesRounds (s : S) (n : ℕ) : Prop :=
  (∀ i < n, L.cond (L.body^[i] s) = true) ∧ L.cond (L.body^[n] s) = false

lemma makesRounds_zero {s : S} : L.MakesRounds s 0 ↔ L.cond s = false :=
  ⟨fun h => h.2, fun h => ⟨fun _ hi => absurd hi (Nat.not_lt_zero _), h⟩⟩

lemma makesRounds_succ {s : S} {n : ℕ} (hc : L.cond s = true) (h : L.MakesRounds (L.body s) n) :
    L.MakesRounds s (n + 1) := by
  refine ⟨fun i hi => ?_, h.2⟩
  cases i with
  | zero => exact hc
  | succ i => exact h.1 i (by omega)

lemma MakesRounds.unique {s : S} {n m : ℕ} (h : L.MakesRounds s n) (h' : L.MakesRounds s m) :
    n = m := by
  rcases Nat.lt_trichotomy n m with hlt | heq | hgt
  · exact absurd (h'.1 n hlt) (by simp [h.2])
  · exact heq
  · exact absurd (h.1 m hgt) (by simp [h'.2])

end WhileLoop
