import Mathlib.Tactic

/-!
Tapes that are only wound forward.

* `Tape`: the elements played and those to come. `current` is the last one played.
* `wind`, `next`, `seek`, `find`: winding over so many elements, over one, up to the first one that
  has a property or else to the end, and up to the first one but only if there is one.
* `t ≤ t'` says that `t'` is `t` wound forward, which is a partial order. Every move is one forward.
* `find_of_le`: an element that is to come is found alike from every place before it.
* `seek_iterate`, `pending_seek_iterate`: seeking again and again stops at each element of the
  property in turn.
-/

/-- A list cut in two, what has been played and what is to come. -/
@[ext] structure Tape (α : Type*) where
  played : List α
  pending : List α
deriving DecidableEq

namespace Tape

variable {α : Type*} {t t' t'' : Tape α} {p : α → Bool} {e : α} {m n : ℕ}

/-- The list that is cut. -/
def whole (t : Tape α) : List α := t.played ++ t.pending

/-- The element last played. -/
def current (t : Tape α) : Option α := t.played.getLast?

/-- Winding over the next `n` elements. -/
def wind (t : Tape α) (n : ℕ) : Tape α := ⟨t.played ++ t.pending.take n, t.pending.drop n⟩

/-- Winding over one element. -/
def next (t : Tape α) : Tape α := t.wind 1

/-- Winding up to the first element with the property and over it, or to the end. -/
def seek (p : α → Bool) (t : Tape α) : Tape α := t.wind (t.pending.findIdx p + 1)

/-- Winding up to the first element with the property and over it, if there is one. -/
def find (p : α → Bool) (t : Tape α) : Tape α := if t.pending.any p then t.seek p else t

@[simp] lemma whole_wind (t : Tape α) (n : ℕ) : (t.wind n).whole = t.whole := by
  rw [whole, wind, List.append_assoc, List.take_append_drop, whole]

@[simp] lemma wind_zero (t : Tape α) : t.wind 0 = t := by
  rw [wind, List.take_zero, List.append_nil, List.drop_zero]

lemma wind_wind (t : Tape α) (m n : ℕ) : (t.wind m).wind n = t.wind (m + n) := by
  rw [wind, wind, wind, List.append_assoc, List.drop_drop, ← List.take_add]

/-! ### Winding forward -/

/-- `t'` is `t` wound forward. -/
instance : LE (Tape α) := ⟨fun t t' => ∃ n, t' = t.wind n⟩

lemma le_wind (t : Tape α) (n : ℕ) : t ≤ t.wind n := ⟨n, rfl⟩

lemma length_played_wind (t : Tape α) (n : ℕ) :
    (t.wind n).played.length = t.played.length + min n t.pending.length := by
  rw [wind, List.length_append, List.length_take]

/-- The place on a list is the number of elements played. -/
lemma ext_length (hwhole : t.whole = t'.whole) (hlen : t.played.length = t'.played.length) :
    t = t' := by
  obtain ⟨hplayed, hpending⟩ := List.append_inj hwhole hlen
  exact Tape.ext hplayed hpending

instance : PartialOrder (Tape α) where
  le_refl t := ⟨0, t.wind_zero.symm⟩
  le_trans := by
    rintro t _ _ ⟨m, rfl⟩ ⟨n, rfl⟩
    exact ⟨m + n, t.wind_wind m n⟩
  le_antisymm := by
    rintro t _ ⟨m, rfl⟩ ⟨n, hn⟩
    refine ext_length (t.whole_wind m).symm ?_
    have hback := congrArg (fun t => t.played.length) hn
    simp only [length_played_wind] at hback ⊢
    omega

lemma le_next (t : Tape α) : t ≤ t.next := t.le_wind 1

lemma le_seek (p : α → Bool) (t : Tape α) : t ≤ t.seek p := t.le_wind _

lemma le_find (p : α → Bool) (t : Tape α) : t ≤ t.find p := by
  rw [find]
  split_ifs
  · exact t.le_seek p
  · exact le_rfl

lemma whole_eq_of_le (h : t ≤ t') : t.whole = t'.whole := by
  obtain ⟨n, rfl⟩ := h
  exact (t.whole_wind n).symm

/-- What is to come later was to come before. -/
lemma pending_suffix_of_le (h : t ≤ t') : t'.pending <:+ t.pending := by
  obtain ⟨n, rfl⟩ := h
  exact List.drop_suffix n t.pending

/-- What has been played stays played. -/
lemma played_prefix_of_le (h : t ≤ t') : t.played <+: t'.played := by
  obtain ⟨n, rfl⟩ := h
  exact List.prefix_append _ _

/-! ### Looking for an element -/

/-- Winding over a known first part. -/
lemma wind_length_append {l r : List α} (h : t.pending = l ++ r) :
    t.wind l.length = ⟨t.played ++ l, r⟩ := by
  rw [wind, h, List.take_left, List.drop_left]

lemma next_cons {l : List α} (h : t.pending = e :: l) : t.next = ⟨t.played ++ [e], l⟩ :=
  wind_length_append (l := [e]) h

lemma findIdx_append_cons {l r : List α} (hl : ∀ x ∈ l, p x = false) (he : p e = true) :
    (l ++ e :: r).findIdx p = l.length := by
  rw [List.findIdx_append, if_neg, List.findIdx_cons, he, cond_true, Nat.zero_add]
  rw [List.findIdx_lt_length]
  rintro ⟨x, hx, hpx⟩
  rw [hl x hx] at hpx
  exact absurd hpx (by decide)

/-- Seeking winds over the first element with the property. -/
lemma seek_of_first {l r : List α} (h : t.pending = l ++ e :: r) (hl : ∀ x ∈ l, p x = false)
    (he : p e = true) : t.seek p = ⟨t.played ++ (l ++ [e]), r⟩ := by
  have hsplit : t.pending = (l ++ [e]) ++ r := by rw [h, List.append_assoc, List.singleton_append]
  rw [seek, h, findIdx_append_cons hl he, ← wind_length_append hsplit, List.length_append,
    List.length_singleton]

/-- Seeking what is not there winds to the end. -/
lemma seek_of_none (h : ∀ x ∈ t.pending, p x = false) : t.seek p = ⟨t.whole, []⟩ := by
  have hidx : t.pending.findIdx p = t.pending.length := List.findIdx_eq_length_of_false h
  rw [seek, wind, hidx, List.take_of_length_le (Nat.le_succ _),
    List.drop_of_length_le (Nat.le_succ _), whole]

lemma find_of_first {l r : List α} (h : t.pending = l ++ e :: r) (hl : ∀ x ∈ l, p x = false)
    (he : p e = true) : t.find p = ⟨t.played ++ (l ++ [e]), r⟩ := by
  rw [find, if_pos, seek_of_first h hl he]
  rw [List.any_eq_true, h]
  exact ⟨e, by simp, he⟩

lemma find_of_none (h : ∀ x ∈ t.pending, p x = false) : t.find p = t := by
  rw [find, if_neg]
  rw [List.any_eq_true]
  rintro ⟨x, hx, hpx⟩
  rw [h x hx] at hpx
  exact absurd hpx (by decide)

/-- The first element with a property cuts a list. -/
lemma exists_first_or_none (p : α → Bool) (l : List α) :
    (∃ l₁ e l₂, l = l₁ ++ e :: l₂ ∧ (∀ x ∈ l₁, p x = false) ∧ p e = true) ∨
      ∀ x ∈ l, p x = false := by
  induction l with
  | nil => exact Or.inr (List.forall_mem_nil _)
  | cons x l ih =>
      cases hx : p x with
      | true => exact Or.inl ⟨[], x, l, rfl, List.forall_mem_nil _, hx⟩
      | false =>
          rcases ih with ⟨l₁, e, l₂, rfl, hl₁, he⟩ | hnone
          · refine Or.inl ⟨x :: l₁, e, l₂, rfl, ?_, he⟩
            exact List.forall_mem_cons.mpr ⟨hx, hl₁⟩
          · exact Or.inr (List.forall_mem_cons.mpr ⟨hx, hnone⟩)

/-- **An element is found alike from every place before it**, when no other of its property comes
first. -/
theorem find_of_le {l r : List α} (h : t ≤ t') (hpending : t.pending = l ++ e :: r)
    (hl : ∀ x ∈ l, p x = false) (he : p e = true) (hafter : e :: r <:+ t'.pending) :
    t'.find p = t.find p := by
  obtain ⟨m, rfl⟩ := h
  have hm : m ≤ l.length := by
    have hle := hafter.length_le
    simp only [wind, List.length_drop, hpending, List.length_append, List.length_cons] at hle
    omega
  have hdrop : (t.wind m).pending = l.drop m ++ e :: r := by
    rw [wind, hpending, List.drop_append_of_le_length hm]
  have htake : t.pending.take m = l.take m := by
    rw [hpending, List.take_append_of_le_length hm]
  rw [find_of_first hpending hl he,
    find_of_first hdrop (fun x hx => hl x (List.mem_of_mem_drop hx)) he]
  ext1
  · simp only [wind, htake, List.append_assoc]
    rw [← List.append_assoc (l.take m), List.take_append_drop]
  · rfl

/-! ### Seeking again and again -/

/-- The elements of the property up to the first one and after it. -/
lemma countP_split {l r : List α} (hl : ∀ x ∈ l, p x = false) (he : p e = true) :
    (l ++ [e]).countP p = 1 ∧ (l ++ e :: r).countP p = r.countP p + 1 := by
  have hzero : l.countP p = 0 := List.countP_eq_zero.mpr fun x hx => by simp [hl x hx]
  simp [List.countP_append, hzero, he]

lemma le_seek_iterate (p : α → Bool) (n : ℕ) (t : Tape α) : t ≤ (seek p)^[n] t :=
  Function.id_le_iterate_of_id_le (le_seek p) n t

/-- **Seeking `n` times** passes `n` elements of the property and stops at the last of them; where
there are fewer, it winds to the end. -/
theorem seek_iterate (p : α → Bool) (n : ℕ) (t : Tape α) :
    ((seek p)^[n] t).played.countP p = t.played.countP p + min n (t.pending.countP p) ∧
      (n ≤ t.pending.countP p → n ≠ 0 → ∃ e ∈ ((seek p)^[n] t).current, p e = true) ∧
      (t.pending.countP p < n → (seek p)^[n] t = ⟨t.whole, []⟩) := by
  induction n generalizing t with
  | zero => simp
  | succ n ih =>
      rw [Function.iterate_succ_apply]
      rcases exists_first_or_none p t.pending with ⟨l, e, r, h, hl, he⟩ | hnone
      · obtain ⟨hone, hcount⟩ := countP_split (r := r) hl he
        obtain ⟨hplayed, hcurrent, hend⟩ := ih (t.seek p)
        rw [seek_of_first h hl he] at hplayed hcurrent hend ⊢
        rw [h, hcount]
        simp only [List.countP_append, hone] at hplayed hone ⊢
        refine ⟨by omega, fun hle _ => ?_, fun hlt => ?_⟩
        · rcases Nat.eq_zero_or_pos n with rfl | hn
          · exact ⟨e, by simp [current], he⟩
          · exact hcurrent (by simpa using hle) hn.ne'
        · rw [hend (by simpa using hlt), whole, whole, h]
          simp
      · have hzero : t.pending.countP p = 0 :=
          List.countP_eq_zero.mpr fun x hx => by simp [hnone x hx]
        have hfixed : (seek p)^[n] ⟨t.whole, []⟩ = (⟨t.whole, []⟩ : Tape α) := by
          refine Function.iterate_fixed ?_ n
          rw [seek_of_none (List.forall_mem_nil _), whole, List.append_nil]
        rw [seek_of_none hnone, hfixed, hzero]
        refine ⟨?_, fun hle => absurd hle (by omega), fun _ => rfl⟩
        simp [whole, List.countP_append, hzero]

/-- Seeking `n` times winds to the end exactly where there are fewer elements of the property, or so
many and the last element is one of them. -/
theorem pending_seek_iterate (p : α → Bool) (n : ℕ) (t : Tape α) :
    ((seek p)^[n] t).pending = [] ↔ t.pending = [] ∨ t.pending.countP p < n ∨
      (t.pending.countP p = n ∧ ∃ e ∈ t.pending.getLast?, p e = true) := by
  induction n generalizing t with
  | zero =>
      refine ⟨Or.inl, ?_⟩
      rintro (hnil | hlt | ⟨hzero, e, he, hp⟩)
      · exact hnil
      · exact absurd hlt (Nat.not_lt_zero _)
      · exact absurd hp (List.countP_eq_zero.mp hzero e (List.mem_of_getLast? he))
  | succ n ih =>
      rw [Function.iterate_succ_apply, ih]
      rcases exists_first_or_none p t.pending with ⟨l, e, r, h, hl, he⟩ | hnone
      · have hcount := (countP_split (r := r) hl he).2
        rw [seek_of_first h hl he, h, hcount]
        rcases r.eq_nil_or_concat with rfl | ⟨r, x, rfl⟩
        · simp [he]
          omega
        · have hlast : (l ++ e :: (r ++ [x])).getLast? = (r ++ [x]).getLast? := by
            simp [List.getLast?_cons]
          rw [List.concat_eq_append, hlast]
          simp
      · have hzero : t.pending.countP p = 0 :=
          List.countP_eq_zero.mpr fun x hx => by simp [hnone x hx]
        rw [seek_of_none hnone, hzero]
        simp

end Tape
