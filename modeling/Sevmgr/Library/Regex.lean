import Mathlib.Tactic

/-!
Regular expressions with groups, matched by backtracking.

The matcher lists the ways in which an expression matches at a place of a text, in the order in
which a backtracking matcher comes upon them: alternatives from left to right, repetitions from the
longest to the shortest. What it finds is the first way.

* `Regex`, `Regex.ways`, `Regex.search`: the expressions, their ways at a place, and the search for
  the first place with a way.
* `Regex.opt`, `Regex.times`, `Regex.between`, `Regex.seqs`: the usual abbreviations.
* `Regex.Matches`, `Regex.Records`: the words of an expression, and the words that one of its groups
  may record. `mem_ways` says that a way consumes a word of the expression and records words of its
  groups.
* `Regex.Takes`, `Regex.Fails`: the first way consumes a given word, or there is none. Their rules
  follow the expression and make up the run of the matcher on a text of a known form.
-/

/-- Regular expressions over the letters `α`. An assertion looks at the letters on both sides of a
place, and `group i r` records under the number `i` what `r` consumes. -/
inductive Regex (α : Type*) where
  | empty
  | letter (p : α → Bool)
  | assert (p : Option α → Option α → Bool)
  | seq (r s : Regex α)
  | alt (r s : Regex α)
  | star (r : Regex α)
  | group (i : ℕ) (r : Regex α)

namespace Regex

variable {α : Type*}

/-! ### Abbreviations -/

/-- `r?` -/
def opt (r : Regex α) : Regex α := .alt r .empty

/-- `r{n}` -/
def times (r : Regex α) : ℕ → Regex α
  | 0 => .empty
  | n + 1 => .seq r (r.times n)

/-- `r{0,n}` -/
def upTo (r : Regex α) : ℕ → Regex α
  | 0 => .empty
  | n + 1 => opt (.seq r (r.upTo n))

/-- `r{m,n}` -/
def between (r : Regex α) (m n : ℕ) : Regex α := .seq (r.times m) (r.upTo (n - m))

/-- A sequence of expressions. -/
def seqs : List (Regex α) → Regex α
  | [] => .empty
  | r :: rs => .seq r (seqs rs)

/-! ### The matcher -/

/-- A place in a text: what the groups have recorded on the way to it, the letter before it and the
letters after it. -/
structure Place (α : Type*) where
  captures : ℕ → List α
  before : Option α
  rest : List α

/-- Repetition, as often as there are letters left, of steps that consume some. -/
def repeated (f : Place α → List (Place α)) : ℕ → Place α → List (Place α)
  | 0, m => [m]
  | n + 1, m =>
      ((f m).filter fun m' => m'.rest.length < m.rest.length).flatMap (repeated f n) ++ [m]

/-- The places to which the expression leads, in the order in which they are tried. -/
def ways : Regex α → Place α → List (Place α)
  | .empty, m => [m]
  | .letter p, m =>
      match m.rest with
      | [] => []
      | x :: xs => if p x then [⟨m.captures, some x, xs⟩] else []
  | .assert p, m => if p m.before m.rest.head? then [m] else []
  | .seq r s, m => (r.ways m).flatMap s.ways
  | .alt r s, m => r.ways m ++ s.ways m
  | .star r, m => repeated r.ways m.rest.length m
  | .group i r, m => (r.ways m).map fun m' => { m' with
      captures := Function.update m'.captures i (m.rest.take (m.rest.length - m'.rest.length)) }

/-- The first way in the part of a text that follows `before`. -/
def searchFrom (r : Regex α) (before : Option α) : List α → Option (Place α)
  | [] => (r.ways ⟨fun _ => [], before, []⟩).head?
  | x :: xs => ((r.ways ⟨fun _ => [], before, x :: xs⟩).head?).or (searchFrom r (some x) xs)

/-- The first way in a text: at its first place that has one. -/
def search (r : Regex α) (s : List α) : Option (Place α) := r.searchFrom none s

/-- Some way consumes the whole text. -/
def matchesAll (r : Regex α) (s : List α) : Bool :=
  (r.ways ⟨fun _ => [], none, s⟩).any fun m => m.rest.isEmpty

/-! ### Words -/

/-- The words of an expression. -/
def Matches : Regex α → List α → Prop
  | .empty, w => w = []
  | .letter p, w => ∃ x, p x = true ∧ w = [x]
  | .assert _, w => w = []
  | .seq r s, w => ∃ u v, r.Matches u ∧ s.Matches v ∧ w = u ++ v
  | .alt r s, w => r.Matches w ∨ s.Matches w
  | .star r, w => ∃ us : List (List α), (∀ u ∈ us, r.Matches u) ∧ w = us.flatten
  | .group _ r, w => r.Matches w

/-- The words that the group of a number may record. -/
def Records : Regex α → ℕ → List α → Prop
  | .empty, _, _ | .letter _, _, _ | .assert _, _, _ => False
  | .seq r s, i, w | .alt r s, i, w => r.Records i w ∨ s.Records i w
  | .star r, i, w => r.Records i w
  | .group j r, i, w => (i = j ∧ r.Matches w) ∨ r.Records i w

/-- From `m` to `m'` a word of `P` is consumed, and what is recorded on the way satisfies `R`. -/
def Consumes (P : List α → Prop) (R : ℕ → List α → Prop) (m m' : Place α) : Prop :=
  ∃ w, m.rest = w ++ m'.rest ∧ P w ∧ ∀ i, m'.captures i = m.captures i ∨ R i (m'.captures i)

/-- Two ways one after the other. -/
lemma Consumes.trans {P Q : List α → Prop} {R : ℕ → List α → Prop} {m₁ m₂ m₃ : Place α}
    (h : Consumes P R m₁ m₂) (h' : Consumes Q R m₂ m₃) :
    Consumes (fun w => ∃ u v, P u ∧ Q v ∧ w = u ++ v) R m₁ m₃ := by
  obtain ⟨u, hu, hPu, hRu⟩ := h
  obtain ⟨v, hv, hQv, hRv⟩ := h'
  refine ⟨u ++ v, by rw [hu, hv, List.append_assoc], ⟨u, v, hPu, hQv, rfl⟩, fun i => ?_⟩
  rcases hRv i with hi | hi
  · rw [hi]
    exact hRu i
  · exact Or.inr hi

lemma Consumes.mono {P Q : List α → Prop} {R S : ℕ → List α → Prop} {m m' : Place α}
    (h : Consumes P R m m') (hPQ : ∀ w, P w → Q w) (hRS : ∀ i w, R i w → S i w) :
    Consumes Q S m m' := by
  obtain ⟨w, hw, hP, hR⟩ := h
  exact ⟨w, hw, hPQ w hP, fun i => (hR i).imp_right (hRS i _)⟩

/-- Repetition consumes a sequence of words. -/
lemma consumes_of_mem_repeated {P : List α → Prop} {R : ℕ → List α → Prop}
    {f : Place α → List (Place α)} (hf : ∀ m m', m' ∈ f m → Consumes P R m m') {n : ℕ}
    {m m' : Place α} (h : m' ∈ repeated f n m) :
    Consumes (fun w => ∃ us : List (List α), (∀ u ∈ us, P u) ∧ w = us.flatten) R m m' := by
  induction n generalizing m with
  | zero =>
      rw [repeated, List.mem_singleton] at h
      subst h
      exact ⟨[], rfl, ⟨[], fun _ hu => absurd hu List.not_mem_nil, rfl⟩, fun _ => Or.inl rfl⟩
  | succ n ih =>
      rw [repeated, List.mem_append, List.mem_flatMap, List.mem_singleton] at h
      rcases h with ⟨m₁, hm₁, hm'⟩ | rfl
      · refine ((hf m m₁ (List.mem_filter.mp hm₁).1).trans (ih hm')).mono ?_ fun _ _ h => h
        rintro _ ⟨u, _, hu, ⟨us, hus, rfl⟩, rfl⟩
        exact ⟨u :: us, List.forall_mem_cons.mpr ⟨hu, hus⟩, rfl⟩
      · exact ⟨[], rfl, ⟨[], fun _ hu => absurd hu List.not_mem_nil, rfl⟩, fun _ => Or.inl rfl⟩

/-- **A way consumes a word of the expression** and records words of its groups. -/
theorem mem_ways {r : Regex α} {m m' : Place α} (h : m' ∈ r.ways m) :
    Consumes r.Matches r.Records m m' := by
  induction r generalizing m m' with
  | empty =>
      rw [ways, List.mem_singleton] at h
      subst h
      exact ⟨[], rfl, rfl, fun _ => Or.inl rfl⟩
  | letter p =>
      rw [ways] at h
      cases hrest : m.rest with
      | nil => simp [hrest] at h
      | cons x xs =>
          rw [hrest] at h
          by_cases hp : p x = true
          · simp only [hp, if_true, List.mem_singleton] at h
            subst h
            exact ⟨[x], hrest, ⟨x, hp, rfl⟩, fun _ => Or.inl rfl⟩
          · simp [hp] at h
  | assert p =>
      rw [ways] at h
      split_ifs at h
      · rw [List.mem_singleton] at h
        subst h
        exact ⟨[], rfl, rfl, fun _ => Or.inl rfl⟩
      · exact absurd h List.not_mem_nil
  | seq r s ihr ihs =>
      rw [ways, List.mem_flatMap] at h
      obtain ⟨m₁, hm₁, hm'⟩ := h
      exact ((ihr hm₁).mono (fun _ h => h) fun _ _ => Or.inl).trans
        ((ihs hm').mono (fun _ h => h) fun _ _ => Or.inr)
  | alt r s ihr ihs =>
      rw [ways, List.mem_append] at h
      rcases h with h | h
      · exact (ihr h).mono (fun _ => Or.inl) fun _ _ => Or.inl
      · exact (ihs h).mono (fun _ => Or.inr) fun _ _ => Or.inr
  | star r ih => exact consumes_of_mem_repeated (fun _ _ => ih) h
  | group i r ih =>
      rw [ways, List.mem_map] at h
      obtain ⟨m₁, hm₁, rfl⟩ := h
      obtain ⟨w, hw, hmatch, hrec⟩ := ih hm₁
      have htake : m.rest.take (m.rest.length - m₁.rest.length) = w := by
        rw [hw, List.length_append, Nat.add_sub_cancel, List.take_left]
      refine ⟨w, hw, hmatch, fun j => ?_⟩
      by_cases hj : j = i
      · subst hj
        refine Or.inr (Or.inl ⟨rfl, ?_⟩)
        simpa only [Function.update_self, htake] using hmatch
      · simp only [Function.update_of_ne hj]
        exact (hrec j).imp_right Or.inr

/-- What a search records are words of the groups. -/
theorem records_of_search {r : Regex α} {s : List α} {m : Place α} (h : r.search s = some m)
    (i : ℕ) : m.captures i = [] ∨ r.Records i (m.captures i) := by
  suffices key : ∀ b, r.searchFrom b s = some m →
      m.captures i = [] ∨ r.Records i (m.captures i) from key none h
  clear h
  induction s with
  | nil =>
      intro b hb
      obtain ⟨w, -, -, hrec⟩ := mem_ways (List.mem_of_mem_head? hb)
      exact hrec i
  | cons x xs ih =>
      intro b hb
      rw [searchFrom, Option.or_eq_some_iff] at hb
      rcases hb with hb | ⟨-, hb⟩
      · obtain ⟨w, -, -, hrec⟩ := mem_ways (List.mem_of_mem_head? hb)
        exact hrec i
      · exact ih _ hb

/-- Runs of letters have no groups. -/
lemma not_records_times (p : α → Bool) (n i : ℕ) (w : List α) :
    ¬ ((letter p).times n).Records i w := by
  induction n with
  | zero => exact id
  | succ n ih => exact fun h => h.elim id ih

lemma not_records_upTo (p : α → Bool) (n i : ℕ) (w : List α) :
    ¬ ((letter p).upTo n).Records i w := by
  induction n with
  | zero => exact id
  | succ n ih => exact fun h => h.elim (fun h => h.elim id ih) id

lemma not_records_between (p : α → Bool) (m n i : ℕ) (w : List α) :
    ¬ ((letter p).between m n).Records i w :=
  fun h => h.elim (not_records_times p m i w) (not_records_upTo p (n - m) i w)

/-- The words of `r{n}` over single letters. -/
lemma matches_times_letter {p : α → Bool} {n : ℕ} {w : List α} :
    ((letter p).times n).Matches w ↔ w.length = n ∧ ∀ x ∈ w, p x = true := by
  induction n generalizing w with
  | zero =>
      refine ⟨?_, fun h => List.length_eq_zero_iff.mp h.1⟩
      rintro rfl
      exact ⟨rfl, fun _ hx => absurd hx List.not_mem_nil⟩
  | succ n ih =>
      refine ⟨?_, fun ⟨hlen, hall⟩ => ?_⟩
      · rintro ⟨_, v, ⟨x, hx, rfl⟩, hv, rfl⟩
        obtain ⟨hlen, hall⟩ := ih.mp hv
        exact ⟨by simp [hlen], List.forall_mem_cons.mpr ⟨hx, hall⟩⟩
      · obtain ⟨x, v, rfl⟩ := List.exists_cons_of_length_eq_add_one hlen
        obtain ⟨hx, hv⟩ := List.forall_mem_cons.mp hall
        exact ⟨[x], v, ⟨x, hx, rfl⟩, ih.mpr ⟨by simpa using hlen, hv⟩, rfl⟩

/-- The words of `r{0,n}` over single letters. -/
lemma matches_upTo_letter {p : α → Bool} {n : ℕ} {w : List α} :
    ((letter p).upTo n).Matches w ↔ w.length ≤ n ∧ ∀ x ∈ w, p x = true := by
  induction n generalizing w with
  | zero =>
      refine ⟨?_, fun h => List.length_eq_zero_iff.mp (Nat.le_zero.mp h.1)⟩
      rintro rfl
      exact ⟨le_rfl, fun _ hx => absurd hx List.not_mem_nil⟩
  | succ n ih =>
      refine ⟨?_, fun ⟨hlen, hall⟩ => ?_⟩
      · rintro (⟨_, v, ⟨x, hx, rfl⟩, hv, rfl⟩ | rfl)
        · obtain ⟨hlen, hall⟩ := ih.mp hv
          exact ⟨by simpa using hlen, List.forall_mem_cons.mpr ⟨hx, hall⟩⟩
        · exact ⟨Nat.zero_le _, fun _ hx => absurd hx List.not_mem_nil⟩
      · cases w with
        | nil => exact Or.inr rfl
        | cons x v =>
            obtain ⟨hx, hv⟩ := List.forall_mem_cons.mp hall
            exact Or.inl ⟨[x], v, ⟨x, hx, rfl⟩, ih.mpr ⟨by simpa using hlen, hv⟩, rfl⟩

/-- The words of `r{m,n}` over single letters. -/
lemma matches_between_letter {p : α → Bool} {m n : ℕ} (hmn : m ≤ n) {w : List α} :
    ((letter p).between m n).Matches w ↔ (m ≤ w.length ∧ w.length ≤ n) ∧ ∀ x ∈ w, p x = true := by
  refine ⟨?_, fun ⟨⟨hm, hn⟩, hall⟩ => ?_⟩
  · rintro ⟨u, v, hu, hv, rfl⟩
    obtain ⟨hlen, hall⟩ := matches_times_letter.mp hu
    obtain ⟨hlen', hall'⟩ := matches_upTo_letter.mp hv
    rw [List.length_append]
    exact ⟨by omega, List.forall_mem_append.mpr ⟨hall, hall'⟩⟩
  · refine ⟨w.take m, w.drop m, matches_times_letter.mpr ⟨?_, fun x hx => ?_⟩,
      matches_upTo_letter.mpr ⟨?_, fun x hx => ?_⟩, (List.take_append_drop m w).symm⟩
    · rw [List.length_take, Nat.min_eq_left hm]
    · exact hall x (List.mem_of_mem_take hx)
    · rw [List.length_drop]
      omega
    · exact hall x (List.mem_of_mem_drop hx)

/-! ### The first way -/

/-- The first way consumes the word `w` before `t`, and turns the records `c` into `c'`. -/
def Takes (r : Regex α) (c : ℕ → List α) (w t : List α) (c' : ℕ → List α) : Prop :=
  ∀ b, ∃ b', (r.ways ⟨c, b, w ++ t⟩).head? = some ⟨c', b', t⟩

/-- The expression has no way at the start of `t`. -/
def Fails (r : Regex α) (t : List α) : Prop := ∀ c b, r.ways ⟨c, b, t⟩ = []

variable {r s : Regex α} {p : α → Bool} {c c₁ c₂ c' : ℕ → List α} {u v w t : List α}

/-- The first way of a way that goes on. -/
private lemma head?_flatMap {β γ : Type*} {l : List β} {x : β} {f : β → List γ} {y : γ}
    (hx : l.head? = some x) (hy : (f x).head? = some y) : (l.flatMap f).head? = some y := by
  cases l with
  | nil => exact absurd hx (by simp)
  | cons x' l =>
      rw [List.head?_cons, Option.some.injEq] at hx
      rw [List.flatMap_cons, List.head?_append, hx, hy]
      rfl

lemma takes_empty (c : ℕ → List α) (t : List α) : Takes .empty c [] t c := fun b => ⟨b, rfl⟩

lemma Takes.seq (h : Takes r c u (v ++ t) c₁) (h' : Takes s c₁ v t c₂) :
    Takes (.seq r s) c (u ++ v) t c₂ := by
  intro b
  obtain ⟨b₁, hb₁⟩ := h b
  obtain ⟨b₂, hb₂⟩ := h' b₁
  refine ⟨b₂, ?_⟩
  rw [ways, List.append_assoc]
  exact head?_flatMap hb₁ hb₂

lemma Takes.altLeft (h : Takes r c w t c') : Takes (.alt r s) c w t c' := by
  intro b
  obtain ⟨b', hb'⟩ := h b
  refine ⟨b', ?_⟩
  rw [ways, List.head?_append, hb']
  rfl

lemma Takes.altRight (hr : Fails r (w ++ t)) (h : Takes s c w t c') :
    Takes (.alt r s) c w t c' := by
  intro b
  obtain ⟨b', hb'⟩ := h b
  refine ⟨b', ?_⟩
  rw [ways, hr, List.nil_append, hb']

lemma Takes.opt (h : Takes r c w t c') : Takes (opt r) c w t c' := h.altLeft

lemma takes_opt_of_fails (h : Fails r t) (c : ℕ → List α) : Takes (opt r) c [] t c :=
  .altRight h (takes_empty c t)

lemma Takes.group (h : Takes r c w t c') (i : ℕ) :
    Takes (.group i r) c w t (Function.update c' i w) := by
  intro b
  obtain ⟨b', hb'⟩ := h b
  refine ⟨b', ?_⟩
  rw [ways, List.head?_map, hb', Option.map_some, List.length_append, Nat.add_sub_cancel,
    List.take_left]

/-- An assertion that holds wherever the text goes on as `t`. -/
lemma takes_assert {q : Option α → Option α → Bool} (h : ∀ b, q b t.head? = true)
    (c : ℕ → List α) : Takes (.assert q) c [] t c := by
  intro b
  refine ⟨b, ?_⟩
  rw [ways, List.nil_append, if_pos (h b), List.head?_cons]

lemma takes_letter {x : α} (hx : p x = true) (c : ℕ → List α) (t : List α) :
    Takes (.letter p) c [x] t c := by
  intro b
  refine ⟨some x, ?_⟩
  simp only [ways, List.singleton_append, hx, if_true, List.head?_cons]

lemma fails_letter (h : ∀ x ∈ t.head?, p x = false) : Fails (.letter p) t := by
  intro c b
  cases t with
  | nil => rfl
  | cons x t => simp only [ways, h x rfl, Bool.false_eq_true, if_false]

lemma Fails.seq (h : Fails r t) (s : Regex α) : Fails (.seq r s) t := by
  intro c b
  rw [ways, h, List.flatMap_nil]

/-! ### Runs of letters -/

lemma takes_times_letter (hw : ∀ x ∈ w, p x = true) (c : ℕ → List α) (t : List α) :
    Takes ((letter p).times w.length) c w t c := by
  induction w with
  | nil => exact takes_empty c t
  | cons x w ih =>
      obtain ⟨hx, hw⟩ := List.forall_mem_cons.mp hw
      exact (takes_letter hx c (w ++ t)).seq (ih hw)

lemma takes_upTo_letter {n : ℕ} (hn : w.length ≤ n) (hw : ∀ x ∈ w, p x = true)
    (hstop : w.length = n ∨ ∀ x ∈ t.head?, p x = false) (c : ℕ → List α) :
    Takes ((letter p).upTo n) c w t c := by
  induction w generalizing n with
  | nil =>
      cases n with
      | zero => exact takes_empty c t
      | succ n =>
          have ht := hstop.resolve_left (Nat.succ_ne_zero n).symm
          exact takes_opt_of_fails ((fails_letter ht).seq _) c
  | cons x w ih =>
      obtain ⟨hx, hw⟩ := List.forall_mem_cons.mp hw
      rw [List.length_cons] at hn hstop
      obtain ⟨n, rfl⟩ := Nat.exists_eq_add_of_le' (Nat.le_of_add_left_le hn)
      exact ((takes_letter hx c (w ++ t)).seq
        (ih (by omega) hw (hstop.imp_left Nat.succ_injective.eq_iff.mp))).opt

/-- A run of letters is consumed whole if it may be no longer or nothing follows that fits. -/
lemma takes_between_letter {m n : ℕ} (hm : m ≤ w.length) (hn : w.length ≤ n)
    (hw : ∀ x ∈ w, p x = true) (hstop : w.length = n ∨ ∀ x ∈ t.head?, p x = false)
    (c : ℕ → List α) : Takes ((letter p).between m n) c w t c := by
  have htake : (w.take m).length = m := by rw [List.length_take, Nat.min_eq_left hm]
  have hdrop : (w.drop m).length = w.length - m := List.length_drop
  have h := takes_times_letter (w := w.take m) (fun x hx => hw x (List.mem_of_mem_take hx)) c
    (w.drop m ++ t)
  have h' := takes_upTo_letter (w := w.drop m) (t := t) (n := n - m) (by omega)
    (fun x hx => hw x (List.mem_of_mem_drop hx)) (hstop.imp_left fun he => by omega) c
  have hboth := h.seq h'
  rwa [htake, List.take_append_drop] at hboth

lemma fails_times_letter (h : ∀ x ∈ t.head?, p x = false) (n : ℕ) :
    Fails ((letter p).times (n + 1)) t := (fails_letter h).seq _

/-- A repetition consumes letters up to the first one that does not fit. -/
lemma takes_star_letter (hw : ∀ x ∈ w, p x = true) (ht : ∀ x ∈ t.head?, p x = false)
    (c : ℕ → List α) : Takes (.star (.letter p)) c w t c := by
  suffices key : ∀ n, w.length ≤ n → ∀ b, ∃ b',
      (repeated (letter p).ways n ⟨c, b, w ++ t⟩).head? = some ⟨c, b', t⟩ by
    intro b
    rw [ways]
    exact key _ (by rw [List.length_append]; omega) b
  induction w with
  | nil =>
      intro n _ b
      refine ⟨b, ?_⟩
      cases n with
      | zero => rfl
      | succ n =>
          rw [List.nil_append, repeated, fails_letter ht c b]
          rfl
  | cons x w ih =>
      intro n hn b
      obtain ⟨hx, hw⟩ := List.forall_mem_cons.mp hw
      cases n with
      | zero => exact absurd hn (by simp)
      | succ n =>
          obtain ⟨b', hb'⟩ := ih hw n (by simpa using hn) (some x)
          refine ⟨b', ?_⟩
          have hstep : (letter p).ways ⟨c, b, x :: (w ++ t)⟩ = [⟨c, some x, w ++ t⟩] := by
            simp only [ways, hx, if_true]
          rw [List.cons_append, repeated, hstep, List.head?_append]
          simp only [List.length_cons, Nat.lt_succ_self, decide_true, List.filter_cons_of_pos,
            List.filter_nil, List.flatMap_cons, List.flatMap_nil, List.append_nil, hb']
          rfl

/-! ### Finding -/

/-- An anchored expression is found at the start of a text that it takes. -/
theorem search_of_takes {q : Option α → Option α → Bool} {rs : List (Regex α)}
    (hstart : q none (w ++ t).head? = true) (h : Takes (seqs rs) (fun _ => []) w t c') :
    ∃ m, (seqs (.assert q :: rs)).search (w ++ t) = some m ∧ m.captures = c' := by
  obtain ⟨b', hb'⟩ := h none
  have hfirst : ((seqs (.assert q :: rs)).ways ⟨fun _ => [], none, w ++ t⟩).head?
      = some ⟨c', b', t⟩ := by
    rw [seqs, ways, ways, if_pos hstart, List.flatMap_singleton]
    exact hb'
  refine ⟨⟨c', b', t⟩, ?_, rfl⟩
  rw [search]
  cases hs : w ++ t with
  | nil => rwa [hs] at hfirst
  | cons x xs =>
      rw [hs] at hfirst
      rw [searchFrom, hfirst, Option.some_or]

/-- An anchored expression matches a text that it takes to its end. -/
theorem matchesAll_of_takes {q : Option α → Option α → Bool} {rs : List (Regex α)}
    (hstart : q none w.head? = true) (h : Takes (seqs rs) (fun _ => []) w [] c') :
    (seqs (.assert q :: rs)).matchesAll w = true := by
  obtain ⟨b', hb'⟩ := h none
  rw [List.append_nil] at hb'
  refine List.any_eq_true.mpr ⟨⟨c', b', []⟩, ?_, rfl⟩
  rw [seqs, ways, ways, if_pos hstart, List.flatMap_singleton]
  exact List.mem_of_mem_head? hb'

/-- What is matched as a whole is a word of the expression. -/
lemma matches_of_matchesAll (h : r.matchesAll w = true) : r.Matches w := by
  obtain ⟨m, hm, hrest⟩ := List.any_eq_true.mp h
  obtain ⟨u, hu, hmatch, -⟩ := mem_ways hm
  rw [List.isEmpty_iff.mp hrest, List.append_nil] at hu
  obtain rfl : w = u := hu
  exact hmatch

end Regex
