import Mathlib.Data.List.DropRight
import Mathlib.Tactic

/-!
Numbers that are set and added to.

* `Change`: what becomes of such a number, and `Change.after`, where a list of changes gets it.
* `base`, `raises`: the number at the last setting, and what has been added since.
* `after_eq`: the number is the sum of the two, and by `after_map_add` it is the sum of all that has
  been added when it is never set.
-/

/-- The number is set to `a`, or `a` is added to it. -/
inductive Change (M : Type*) where
  | set (a : M)
  | add (a : M)
deriving DecidableEq

namespace Change

variable {M : Type*}

/-- The number after one change. -/
def apply [Add M] (a : M) : Change M → M
  | set b => b
  | add b => a + b

/-- The number after a list of changes, first to last. -/
def after [Add M] (a : M) (l : List (Change M)) : M := l.foldl apply a

/-- The change adds to the number. -/
def isAdd : Change M → Bool
  | set _ => false
  | add _ => true

/-- What the change adds. -/
def raise [Zero M] : Change M → M
  | set _ => 0
  | add a => a

/-- The number at the last setting, or `a` if there was none. -/
def base (a : M) (l : List (Change M)) : M :=
  match (l.rdropWhile isAdd).getLast? with
  | some (set b) => b
  | _ => a

/-- What has been added since the last setting. -/
def raises [Zero M] (l : List (Change M)) : List M := (l.rtakeWhile isAdd).map raise

section

variable [AddMonoid M] (a : M) (l : List (Change M))

@[simp] lemma after_nil : after a ([] : List (Change M)) = a := rfl

@[simp] lemma after_concat (c : Change M) : after a (l ++ [c]) = apply (after a l) c := by
  rw [after, List.foldl_append]
  rfl

/-- **A number is what it was last set to and what has been added to it since.** -/
theorem after_eq : after a l = base a l + (raises l).sum := by
  induction l using List.reverseRecOn with
  | nil => simp [base, raises]
  | append_singleton l c ih =>
      rw [after_concat]
      cases c with
      | set b =>
          rw [base, raises, List.rdropWhile_concat_neg _ _ _ (by simp [isAdd]),
            List.rtakeWhile_concat_neg _ _ _ (by simp [isAdd]), List.getLast?_concat]
          exact (add_zero b).symm
      | add b =>
          have hbase : base a (l ++ [add b]) = base a l := by
            rw [base, base, List.rdropWhile_concat_pos _ _ _ rfl]
          have hraises : raises (l ++ [add b]) = raises l ++ [b] := by
            rw [raises, raises, List.rtakeWhile_concat_pos _ _ _ rfl, List.map_append]
            rfl
          rw [hbase, hraises, List.sum_append, List.sum_singleton, ← add_assoc, ← ih]
          rfl

/-- A number that is never set is the sum of all that has been added to it. -/
lemma after_map_add (l : List M) : after a (l.map add) = a + l.sum := by
  induction l generalizing a with
  | nil => exact (add_zero a).symm
  | cons b l ih =>
      rw [List.map_cons, List.sum_cons, ← add_assoc, ← ih]
      rfl

end

end Change
