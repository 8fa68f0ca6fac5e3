import Mathlib.Tactic
import Mathlib.Order.Interval.Finset.Basic

/-!
Slots handed out by probing: a request for the slot `t` takes the nearest slot at or
after `t` that is still free.

* `IsNearestFree`: the slot a request takes, over any linear order. `unique` and `exists_of_finite`
  say that it is determined and that it exists when finitely many slots are taken;
  `of_taken` is the step of the probe.
* `exchange`: two requests served in either order take the same two slots between them,
  although they may swap them.
* `TakenInARow`: over the integers, a request is moved by as many slots as are taken in a row.
* `Serves` and `Serves.perm`: a list of requests served one after the other occupies a set of
  slots that does not depend on the order of the list.
-/

/-- `k` is the nearest slot at or after `t` that `s` leaves free. -/
def IsNearestFree {α : Type*} [Preorder α] (s : Set α) (t k : α) : Prop :=
  IsLeast {x | t ≤ x ∧ x ∉ s} k

namespace IsNearestFree

variable {α : Type*} [LinearOrder α] {s : Set α} {t t₁ t₂ k k' k₁ k₂ : α}

lemma le (h : IsNearestFree s t k) : t ≤ k := h.1.1

lemma free (h : IsNearestFree s t k) : k ∉ s := h.1.2

/-- Every slot the request was moved over is taken. -/
lemma taken (h : IsNearestFree s t k) {x : α} (htx : t ≤ x) (hxk : x < k) : x ∈ s := by
  by_contra hx
  exact absurd (h.2 ⟨htx, hx⟩) (not_le.mpr hxk)

lemma unique (h : IsNearestFree s t k) (h' : IsNearestFree s t k') : k = k' := IsLeast.unique h h'

/-- A free slot is given to whoever requests it. -/
lemma self (h : t ∉ s) : IsNearestFree s t t := ⟨⟨le_rfl, h⟩, fun _ hx => hx.1⟩

/-- The step of the probe: from a taken slot it goes on at the next one. -/
lemma of_taken [SuccOrder α] [NoMaxOrder α] (ht : t ∈ s) (h : IsNearestFree s (Order.succ t) k) :
    IsNearestFree s t k := by
  refine ⟨⟨(Order.le_succ t).trans h.le, h.free⟩, fun x hx => h.2 ⟨?_, hx.2⟩⟩
  exact Order.succ_le_of_lt (lt_of_le_of_ne hx.1 fun he => hx.2 (he ▸ ht))

/-- A request finds a slot when finitely many are taken. -/
lemma exists_of_finite [LocallyFiniteOrder α] [NoMaxOrder α] (hs : s.Finite) (t : α) :
    ∃ k, IsNearestFree s t k := by
  classical
  obtain ⟨x, htx, hx⟩ := (Set.Ici_infinite t).exists_notMem_finite hs
  have hne : ((Finset.Icc t x).filter (· ∉ s)).Nonempty :=
    ⟨x, Finset.mem_filter.mpr ⟨Finset.mem_Icc.mpr ⟨htx, le_rfl⟩, hx⟩⟩
  obtain ⟨hk, hmin⟩ := Finset.isLeast_min' _ hne
  set k := ((Finset.Icc t x).filter (· ∉ s)).min' hne
  simp only [Finset.coe_filter, Finset.mem_Icc, Set.mem_ofPred_eq] at hk
  refine ⟨k, ⟨hk.1.1, hk.2⟩, fun y hy => ?_⟩
  rcases le_total y x with hyx | hxy
  · exact hmin (by simpa using ⟨⟨hy.1, hyx⟩, hy.2⟩)
  · exact hk.1.2.trans hxy

/-! ### Two requests -/

/-- Taking another slot does not disturb a request. -/
lemma insert_of_ne (h : IsNearestFree s t k) (hk : k ≠ k') : IsNearestFree (insert k' s) t k := by
  refine ⟨⟨h.le, ?_⟩, fun x hx => h.2 ⟨hx.1, fun hs => hx.2 (Or.inr hs)⟩⟩
  rintro (he | hs)
  · exact hk he
  · exact h.free hs

/-- Once its slot is taken, a request is served as one for anything beyond that slot. -/
lemma isLeast_of_insert (h : IsNearestFree s t k) (h' : IsNearestFree (insert k s) t k') :
    IsLeast {x | k < x ∧ x ∉ s} k' := by
  have hk' : k' ∉ s := fun hs => h'.free (Or.inr hs)
  refine ⟨⟨lt_of_le_of_ne (h.2 ⟨h'.le, hk'⟩) fun he => h'.free (Or.inl he.symm), hk'⟩, ?_⟩
  rintro x ⟨hkx, hx⟩
  refine h'.2 ⟨h.le.trans hkx.le, ?_⟩
  rintro (he | hs)
  · exact hkx.ne' he
  · exact hx hs

/-- Two requests take the same two slots in either order. -/
theorem exchange {k₁' k₂' : α} (h₁ : IsNearestFree s t₁ k₁)
    (h₂' : IsNearestFree (insert k₁ s) t₂ k₂') (h₂ : IsNearestFree s t₂ k₂)
    (h₁' : IsNearestFree (insert k₂ s) t₁ k₁') :
    insert k₂' (insert k₁ s) = insert k₁' (insert k₂ s) := by
  by_cases hk : k₁ = k₂
  · -- both want the same slot: the second served takes the first free one beyond it
    subst hk
    rw [(h₂.isLeast_of_insert h₂').unique (h₁.isLeast_of_insert h₁')]
  · rw [h₂'.unique (h₂.insert_of_ne (Ne.symm hk)), h₁'.unique (h₁.insert_of_ne hk),
      Set.insert_comm]

end IsNearestFree

/-! ### The distance of a request from its slot -/

/-- From `t` on exactly `n` slots in a row are taken. -/
def TakenInARow (s : Set ℤ) (t : ℤ) (n : ℕ) : Prop := (∀ i < n, t + (i : ℕ) ∈ s) ∧ t + n ∉ s

/-- A request is moved over the slots taken in a row from where it starts. -/
lemma takenInARow_iff {s : Set ℤ} {t : ℤ} {n : ℕ} :
    TakenInARow s t n ↔ IsNearestFree s t (t + n) := by
  refine ⟨fun h => ⟨⟨by omega, h.2⟩, fun x hx => ?_⟩, fun h => ⟨fun i hi => ?_, h.free⟩⟩
  · by_contra hlt
    obtain ⟨i, rfl⟩ := Int.le.dest hx.1
    exact hx.2 (h.1 i (by omega))
  · exact h.taken (by omega) (by omega)

/-! ### Lists of requests -/

/-- Serving the requests of a list one after the other turns the taken slots `s` into `u`. -/
inductive Serves {α : Type*} [Preorder α] : Set α → List α → Set α → Prop where
  | nil (s : Set α) : Serves s [] s
  | cons {s u : Set α} {t k : α} {l : List α} : IsNearestFree s t k → Serves (insert k s) l u →
      Serves s (t :: l) u

namespace Serves

variable {α : Type*} [LinearOrder α] {s u u' : Set α} {l l' : List α}

lemma unique (h : Serves s l u) (h' : Serves s l u') : u = u' := by
  induction h with
  | nil => cases h'; rfl
  | cons hk _ ih =>
      cases h' with
      | cons hk' h' => exact ih (hk.unique hk' ▸ h')

variable [LocallyFiniteOrder α] [NoMaxOrder α]

lemma exists_of_finite (hs : s.Finite) (l : List α) : ∃ u, Serves s l u := by
  induction l generalizing s with
  | nil => exact ⟨s, .nil s⟩
  | cons t l ih =>
      obtain ⟨k, hk⟩ := IsNearestFree.exists_of_finite hs t
      obtain ⟨u, hu⟩ := ih (hs.insert k)
      exact ⟨u, .cons hk hu⟩

/-- **The order of the requests does not matter** to the set of slots they take: the
permutation is undone by adjacent swaps, each of which is an `exchange`. -/
theorem perm (hs : s.Finite) (hp : l.Perm l') (h : Serves s l u) (h' : Serves s l' u') :
    u = u' := by
  induction hp generalizing s u u' with
  | nil => exact h.unique h'
  | cons t _ ih =>
      cases h with
      | cons hk h =>
          cases h' with
          | cons hk' h' =>
              rw [hk.unique hk'] at h
              exact ih (hs.insert _) h h'
  | swap t₂ t₁ l =>
      obtain _ | ⟨hk₁, _ | ⟨hk₂', h⟩⟩ := h
      obtain _ | ⟨hk₂, _ | ⟨hk₁', h'⟩⟩ := h'
      rw [IsNearestFree.exchange hk₁ hk₂' hk₂ hk₁'] at h
      exact h.unique h'
  | trans _ _ ih₁ ih₂ =>
      obtain ⟨v, hv⟩ := exists_of_finite hs _
      exact (ih₁ hs h hv).trans (ih₂ hs hv h')

end Serves
