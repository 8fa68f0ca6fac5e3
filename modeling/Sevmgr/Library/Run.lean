import Mathlib.Tactic

/-!
Finite runs of a labelled transition relation.

* `Run step s ls s'`: the labels `ls`, in this order, lead from `s` to `s'`.
* `append_iff`, `snoc`: runs are cut and joined at any point.
* `invariant` and `history`: what every transition preserves holds at the end of a run, where
  `history` lets the property speak of the labels passed so far.
* `unique`, `strengthen`: a run of a deterministic relation is determined by its labels, and a
  condition met along a run becomes a condition on its transitions.
* `mono`, `refine`: a run of one relation read as a run of another, label by label or with each
  label expanded to a list.
-/

/-- The labels `ls` lead from the first state to the second. -/
inductive Run {S L : Type*} (step : S → L → S → Prop) : S → List L → S → Prop where
  | nil (s : S) : Run step s [] s
  | cons {s s' s'' : S} {l : L} {ls : List L} : step s l s' → Run step s' ls s'' →
      Run step s (l :: ls) s''

namespace Run

variable {S L M : Type*} {step : S → L → S → Prop} {s s' s'' : S} {l : L} {ls ls' : List L}

lemma single (h : step s l s') : Run step s [l] s' := .cons h (.nil s')

lemma append (h : Run step s ls s') (h' : Run step s' ls' s'') : Run step s (ls ++ ls') s'' := by
  induction h with
  | nil => exact h'
  | cons hs _ ih => exact .cons hs (ih h')

lemma snoc (h : Run step s ls s') (h' : step s' l s'') : Run step s (ls ++ [l]) s'' :=
  h.append (single h')

lemma append_iff : Run step s (ls ++ ls') s'' ↔ ∃ s', Run step s ls s' ∧ Run step s' ls' s'' := by
  refine ⟨fun h => ?_, fun ⟨_, h, h'⟩ => h.append h'⟩
  induction ls generalizing s with
  | nil => exact ⟨s, .nil s, h⟩
  | cons l ls ih =>
      cases h with
      | cons hs h =>
          obtain ⟨s', h₁, h₂⟩ := ih h
          exact ⟨s', .cons hs h₁, h₂⟩

/-- The rule for properties of the labels passed so far and of the state they lead to. -/
theorem history {H : List L → S → Prop} (h0 : H [] s)
    (hstep : ∀ ls s l s', H ls s → step s l s' → H (ls ++ [l]) s') (h : Run step s ls s') :
    H ls s' := by
  suffices key : ∀ {ls₀ : List L}, H ls₀ s → H (ls₀ ++ ls) s' by simpa using key h0
  clear h0
  induction h with
  | nil => intro ls₀ h; simpa using h
  | @cons s s₁ _ l ls hs _ ih =>
      intro ls₀ h
      have := ih (hstep _ _ _ _ h hs)
      rwa [List.append_assoc, List.singleton_append] at this

/-- The rule for invariants of the state. -/
theorem invariant {I : S → Prop} (hstep : ∀ s l s', I s → step s l s' → I s')
    (h : Run step s ls s') (hs : I s) : I s' :=
  h.history (H := fun _ => I) hs fun _ => hstep

lemma mono {step' : S → L → S → Prop} (hle : ∀ s l s', step s l s' → step' s l s')
    (h : Run step s ls s') : Run step' s ls s' := by
  induction h with
  | nil s => exact .nil s
  | cons hs _ ih => exact .cons (hle _ _ _ hs) ih

/-- Where a state and a label determine the next state, a state and labels determine the end. -/
lemma unique (hstep : ∀ s l s' s'', step s l s' → step s l s'' → s' = s'') (h : Run step s ls s')
    (h' : Run step s ls s'') : s' = s'' := by
  induction h with
  | nil => cases h'; rfl
  | cons hs _ ih =>
      cases h' with
      | cons hs' h' => exact ih (hstep _ _ _ _ hs hs' ▸ h')

/-- A condition met by every transition of a run may be added to its relation. -/
lemma strengthen {P : S → L → Prop} (h : Run step s ls s')
    (hP : ∀ ls₁ l ls₂ s₁, ls = ls₁ ++ l :: ls₂ → Run step s ls₁ s₁ → P s₁ l) :
    Run (fun s l s' => step s l s' ∧ P s l) s ls s' := by
  induction h with
  | nil s => exact .nil s
  | cons hs _ ih =>
      refine .cons ⟨hs, hP [] _ _ _ rfl (.nil _)⟩ (ih fun ls₁ l' ls₂ s₁ he h₁ => ?_)
      exact hP (_ :: ls₁) l' ls₂ s₁ (by rw [he, List.cons_append]) (.cons hs h₁)

/-- A run whose transitions are runs of another relation is a run of that relation. -/
theorem refine {step' : S → M → S → Prop} (f : L → List M)
    (hf : ∀ s l s', step s l s' → Run step' s (f l) s') (h : Run step s ls s') :
    Run step' s (ls.flatMap f) s' := by
  induction h with
  | nil s => exact .nil s
  | cons hs _ ih => exact (hf _ _ _ hs).append ih

end Run
