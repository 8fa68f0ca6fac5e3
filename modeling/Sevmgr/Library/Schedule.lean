import Mathlib.Data.List.Sort
import Mathlib.Algebra.Order.BigOperators.Group.List
import Sevmgr.Library.NearestFree

/-!
Probing compared with every other way to give a list of requests their slots.

* `ServesAs`: the slots that probing gives to the requests of a list, one after the other.
* `Schedules`: any slots that could be given instead, free ones and no two alike, none of them
  before the request it is given to.
* `ServesAs.countP_le`: probing leaves at most as many requests beyond any slot as another schedule.
* `exists_perm_of_countP_le`: counts compare two lists slot by slot, each matched with a later one.
  So `ServesAs.least` matches the slots of probing with those of any schedule, none with an earlier
  one, and `ServesAs.sum_le` has them cost the least, whatever lateness costs.
* `map_fst_eq_of_gap`: requests that lie far apart keep their order.
-/

/-- Serving the requests of a list one after the other gives them the slots of the second list. -/
inductive ServesAs {α : Type*} [Preorder α] : Set α → List α → List α → Prop where
  | nil (s : Set α) : ServesAs s [] []
  | cons {s : Set α} {t k : α} {l ks : List α} : IsNearestFree s t k →
      ServesAs (insert k s) l ks → ServesAs s (t :: l) (k :: ks)

/-- The slots `ks` may be given to the requests `l`: each is free and not before its request, and
none is given twice. -/
structure Schedules {α : Type*} [Preorder α] (s : Set α) (l ks : List α) : Prop where
  notBefore : List.Forall₂ (· ≤ ·) l ks
  nodup : ks.Nodup
  free : ∀ k ∈ ks, k ∉ s

section Counting

variable {α : Type*} [LinearOrder α] {l a b g ks : List α} {x y : α}

/-! ### Counting the slots beyond a slot -/

/-- Moving every element up leaves no fewer of them beyond a slot. -/
lemma countP_lt_le_of_forall₂ (h : List.Forall₂ (· ≤ ·) a b) (x : α) :
    a.countP (x < ·) ≤ b.countP (x < ·) := by
  induction h with
  | nil => exact le_rfl
  | @cons u v a b huv _ ih =>
      simp only [List.countP_cons, decide_eq_true_eq]
      by_cases hu : x < u
      · rw [if_pos hu, if_pos (hu.trans_le huv)]
        omega
      · rw [if_neg hu]
        omega

/-- What lies beyond `y` lies beyond `x` or between the two. -/
lemma countP_lt_eq_add (hyx : y ≤ x) (l : List α) :
    l.countP (y < ·) = l.countP (x < ·) + l.countP fun k => y < k ∧ k ≤ x := by
  induction l with
  | nil => rfl
  | cons k l ih =>
      simp only [List.countP_cons, decide_eq_true_eq, ih]
      by_cases hx : x < k
      · rw [if_pos hx, if_pos (hyx.trans_lt hx), if_neg fun h => absurd h.2 (not_le.mpr hx)]
        omega
      · simp only [not_lt.mp hx, and_true, if_neg hx]
        omega

omit [LinearOrder α] in
/-- Different slots that all belong to a list are no more than those of the list. -/
lemma countP_le_of_forall_mem {p : α → Bool} (hg : g.Nodup) (h : ∀ k ∈ g, p k = true → k ∈ ks) :
    g.countP p ≤ ks.countP p := by
  rw [List.countP_eq_length_filter, List.countP_eq_length_filter]
  refine ((hg.filter p).subperm fun k hk => ?_).length_le
  rw [List.mem_filter] at hk ⊢
  exact ⟨h k hk.1 hk.2, hk.2⟩

/-- Of two descending lists, the one that has no more elements beyond any slot is the smaller one
place by place. -/
lemma forall₂_of_countP_le (ha : a.Pairwise (· ≥ ·)) (hb : b.Pairwise (· ≥ ·))
    (hlen : a.length = b.length) (h : ∀ x, a.countP (x < ·) ≤ b.countP (x < ·)) :
    List.Forall₂ (· ≤ ·) a b := by
  induction a generalizing b with
  | nil =>
      rw [List.length_nil, eq_comm, List.length_eq_zero_iff] at hlen
      rw [hlen]
      exact .nil
  | cons u a ih =>
      cases b with
      | nil => exact absurd hlen (Nat.succ_ne_zero _)
      | cons v b =>
          rw [List.pairwise_cons] at ha hb
          have huv : u ≤ v := by
            by_contra hvu
            rw [not_le] at hvu
            have hnone : (v :: b).countP (v < ·) = 0 := by
              rw [List.countP_eq_zero]
              intro k hk
              rcases List.mem_cons.mp hk with rfl | hk
              · simp
              · simpa using hb.1 k hk
            have hone : 0 < (u :: a).countP (v < ·) :=
              List.countP_pos_iff.mpr ⟨u, List.mem_cons_self, by simpa using hvu⟩
            have := h v
            omega
          refine .cons huv (ih ha.2 hb.2 (by simpa using hlen) fun x => ?_)
          by_cases hx : x < u
          · have := h x
            simp only [List.countP_cons, decide_eq_true_eq, if_pos hx, if_pos (hx.trans_le huv)]
              at this
            omega
          · have hnone : a.countP (x < ·) = 0 := by
              rw [List.countP_eq_zero]
              intro k hk
              simpa using (ha.1 k hk).trans (not_lt.mp hx)
            omega

/-- **Counts give a matching.** Two lists of one length, of which the first has no more elements
beyond any slot, can be matched element by element, none of the first being the later one. -/
theorem exists_perm_of_countP_le (hlen : a.length = b.length)
    (h : ∀ x, a.countP (x < ·) ≤ b.countP (x < ·)) :
    ∃ b', b'.Perm b ∧ List.Forall₂ (· ≤ ·) a b' := by
  have hpa := List.perm_insertionSort (· ≥ ·) a
  have hpb := List.perm_insertionSort (· ≥ ·) b
  have hsorted : List.Forall₂ (· ≤ ·) (a.insertionSort (· ≥ ·)) (b.insertionSort (· ≥ ·)) := by
    refine forall₂_of_countP_le (List.pairwise_insertionSort _ a) (List.pairwise_insertionSort _ b)
      (by rw [hpa.length_eq, hpb.length_eq, hlen]) fun x => ?_
    rw [hpa.countP_eq, hpb.countP_eq]
    exact h x
  obtain ⟨b', hb', hp⟩ := List.perm_comp_forall₂ hpa.symm hsorted
  exact ⟨b', hp.trans hpb, hb'⟩

end Counting

namespace ServesAs

section LinearOrder

variable {α : Type*} [LinearOrder α] {s : Set α} {l ks ks' g : List α}

/-- The requests of a list have one list of slots. -/
lemma unique (h : ServesAs s l ks) (h' : ServesAs s l ks') : ks = ks' := by
  induction h generalizing ks' with
  | nil => cases h'; rfl
  | cons hk _ ih =>
      cases h' with
      | cons hk' h' =>
          obtain rfl := hk.unique hk'
          rw [ih h']

/-- The slots taken in the end are those taken before and those given. -/
lemma serves (h : ServesAs s l ks) : Serves s l (s ∪ {k | k ∈ ks}) := by
  induction h with
  | nil s => simpa using Serves.nil s
  | @cons s t k l ks hk _ ih =>
      refine .cons hk ?_
      convert ih using 1
      ext x
      simp only [Set.mem_union, Set.mem_ofPred_eq, List.mem_cons, Set.mem_insert_iff]
      tauto

/-- Probing makes a schedule. -/
theorem schedules (h : ServesAs s l ks) : Schedules s l ks := by
  induction h with
  | nil => exact ⟨.nil, List.nodup_nil, by simp⟩
  | @cons s t k l ks hk _ ih =>
      refine ⟨.cons hk.le ih.notBefore, List.nodup_cons.mpr ⟨fun hmem => ?_, ih.nodup⟩, ?_⟩
      · exact ih.free k hmem (Set.mem_insert k s)
      · intro x hx
        rcases List.mem_cons.mp hx with rfl | hx
        · exact hk.free
        · exact fun hs => ih.free x hx (Set.mem_insert_of_mem k hs)

/-- Requests of free slots, no two of them of the same one, are given these. -/
lemma eq_of_nodup (h : ServesAs s l ks) (hl : l.Nodup) (hs : ∀ t ∈ l, t ∉ s) : ks = l := by
  induction h with
  | nil => rfl
  | @cons s t k l ks hk _ ih =>
      obtain ⟨ht, hnodup⟩ := List.nodup_cons.mp hl
      obtain ⟨hfree, hrest⟩ := List.forall_mem_cons.mp hs
      obtain rfl : k = t := hk.unique (.self hfree)
      rw [ih hnodup fun t' ht' => ?_]
      rw [Set.mem_insert_iff, not_or]
      exact ⟨ne_of_mem_of_not_mem ht' ht, hrest t' ht'⟩

/-- The slots that a request is moved over are taken in the end. -/
lemma taken (h : ServesAs s l ks) {t k x : α} (hmem : (t, k) ∈ l.zip ks) (htx : t ≤ x)
    (hxk : x < k) : x ∈ s ∨ x ∈ ks := by
  induction h with
  | nil => exact absurd hmem List.not_mem_nil
  | @cons s t₁ k₁ l ks hk _ ih =>
      rw [List.zip_cons_cons, List.mem_cons] at hmem
      rcases hmem with heq | hmem
      · obtain ⟨rfl, rfl⟩ := Prod.mk.inj heq
        exact Or.inl (hk.taken htx hxk)
      · rcases ih hmem with hx | hx
        · rcases Set.mem_insert_iff.mp hx with rfl | hx
          · exact Or.inr List.mem_cons_self
          · exact Or.inl hx
        · exact Or.inr (List.mem_cons_of_mem _ hx)

/-- No request is moved over a slot that is free in the end. -/
lemma countP_of_free (h : ServesAs s l ks) {b : α} (hs : b ∉ s) (hks : b ∉ ks) :
    ks.countP (b < ·) = l.countP (b < ·) := by
  induction h with
  | nil => rfl
  | @cons s t k l ks hk _ ih =>
      rw [List.mem_cons, not_or] at hks
      have hiff : b < k ↔ b < t := by
        refine ⟨fun hbk => ?_, fun hbt => hbt.trans_le hk.le⟩
        by_contra htb
        exact hs (hk.taken (not_lt.mp htb) hbk)
      have hrest := ih (fun hmem => (Set.mem_insert_iff.mp hmem).elim hks.1 hs) hks.2
      simp only [List.countP_cons, decide_eq_true_eq, hiff, hrest]

end LinearOrder

/-- The order of the requests makes no difference to which slots are given. -/
theorem perm {α : Type*} [LinearOrder α] [LocallyFiniteOrder α] [NoMaxOrder α] {s : Set α}
    {l l' ks ks' : List α} (hs : s.Finite) (hp : l.Perm l') (h : ServesAs s l ks)
    (h' : ServesAs s l' ks') : ks.Perm ks' := by
  have hsame := Serves.perm hs hp h.serves h'.serves
  refine (List.perm_ext_iff_of_nodup h.schedules.nodup h'.schedules.nodup).mpr fun k => ?_
  have hk := Set.ext_iff.mp hsame k
  simp only [Set.mem_union, Set.mem_ofPred_eq] at hk
  have hfree := h.schedules.free k
  have hfree' := h'.schedules.free k
  tauto

section Compared

variable {α : Type*} [LinearOrder α] [LocallyFiniteOrder α] [NoMinOrder α] {s : Set α}
  {l ks g : List α}

/-- The last free slot that is not beyond `x`. -/
lemma exists_last_free (hs : s.Finite) (x : α) :
    ∃ b ≤ x, b ∉ s ∧ ∀ y, b < y → y ≤ x → y ∈ s := by
  obtain ⟨b, hb⟩ := @IsNearestFree.exists_of_finite αᵒᵈ _ _ _ _ hs x
  exact ⟨b, hb.le, hb.free, fun y hby hyx => hb.taken hyx hby⟩

/-- **Probing leaves the fewest requests to come**: beyond any slot it has at most as many as
another schedule. Below that slot lies one that stays free, no request is moved over this one, and
what lies between the two is taken anyway. -/
theorem countP_le (hs : s.Finite) (h : ServesAs s l ks) (hg : Schedules s l g) (x : α) :
    ks.countP (x < ·) ≤ g.countP (x < ·) := by
  obtain ⟨b, hbx, hb, htaken⟩ := exists_last_free (hs.union ks.finite_toSet) x
  simp only [Set.mem_union, Set.mem_ofPred_eq, not_or] at hb
  have hbeyond : ks.countP (b < ·) ≤ g.countP (b < ·) := by
    rw [h.countP_of_free hb.1 hb.2]
    exact countP_lt_le_of_forall₂ hg.notBefore b
  have hbetween : g.countP (fun k => b < k ∧ k ≤ x) ≤ ks.countP fun k => b < k ∧ k ≤ x := by
    refine countP_le_of_forall_mem hg.nodup fun k hk hbkx => ?_
    rw [decide_eq_true_eq] at hbkx
    exact (htaken k hbkx.1 hbkx.2).resolve_left (hg.free k hk)
  rw [countP_lt_eq_add hbx, countP_lt_eq_add hbx g] at hbeyond
  omega

/-- **Probing is nowhere later than another schedule**, up to who gets which slot. -/
theorem least (hs : s.Finite) (h : ServesAs s l ks) (hg : Schedules s l g) :
    ∃ g', g'.Perm g ∧ List.Forall₂ (· ≤ ·) ks g' :=
  exists_perm_of_countP_le (h.schedules.notBefore.length_eq.symm.trans hg.notBefore.length_eq)
    (h.countP_le hs hg)

/-- **Probing costs the least**, for any cost that grows with the slot. -/
theorem sum_le {M : Type*} [AddCommMonoid M] [PartialOrder M] [IsOrderedAddMonoid M] {f : α → M}
    (hf : Monotone f) (hs : s.Finite) (h : ServesAs s l ks) (hg : Schedules s l g) :
    (ks.map f).sum ≤ (g.map f).sum := by
  obtain ⟨g', hp, hle⟩ := h.least hs hg
  rw [← (hp.map f).sum_eq]
  refine List.Forall₂.sum_le_sum ?_
  rw [List.forall₂_map_left_iff, List.forall₂_map_right_iff]
  exact hle.imp fun _ _ hkk => hf hkk

end Compared

end ServesAs

/-! ### Requests that are far apart -/

/-- Requests that lie further apart than any of them is moved keep their order: read in the order of
their slots, they are the list `l`. -/
lemma map_fst_eq_of_gap {ι : Type*} (stamp : ι → ℤ) {n : ℤ} {ps : List (ι × ℤ)} {l : List ι}
    (hlate : ∀ p ∈ ps, stamp p.1 ≤ p.2 ∧ p.2 < stamp p.1 + n) (hsorted : ps.Pairwise (·.2 < ·.2))
    (hp : (ps.map Prod.fst).Perm l) (hgap : l.Pairwise fun a b => stamp a + n ≤ stamp b) :
    ps.map Prod.fst = l := by
  rcases ps.eq_nil_or_concat with rfl | ⟨ps', p₀, rfl⟩
  · exact hp.nil_eq
  have hpos : 0 < n := by
    have := hlate p₀ (by simp)
    omega
  set ps := ps'.concat p₀
  have hapart : l.Pairwise fun a b => stamp a + n ≤ stamp b ∨ stamp b + n ≤ stamp a :=
    hgap.imp Or.inl
  have hsymm : Std.Symm fun a b => stamp a + n ≤ stamp b ∨ stamp b + n ≤ stamp a :=
    ⟨fun _ _ h => h.symm⟩
  have hnodup : (ps.map Prod.fst).Nodup := by
    refine hp.nodup_iff.mpr (hgap.imp fun {a b} hab heq => ?_)
    rw [heq] at hab
    omega
  refine hp.eq_of_pairwise (fun a b _ _ hab hba => by omega) ?_ hgap
  rw [List.nodup_iff_pairwise_ne, List.pairwise_map] at hnodup
  rw [List.pairwise_map]
  refine (List.pairwise_and_iff.mpr ⟨hsorted, hnodup⟩).imp_of_mem ?_
  rintro a b ha hb ⟨hlt, hne⟩
  have hmem : ∀ p ∈ ps, p.1 ∈ l := fun p h => hp.mem_iff.mp (List.mem_map_of_mem h)
  refine (hapart.forall (hmem a ha) (hmem b hb) hne).resolve_right fun hback => ?_
  have := hlate a ha
  have := hlate b hb
  omega
