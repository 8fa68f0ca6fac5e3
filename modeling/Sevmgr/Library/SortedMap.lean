import Mathlib.Tactic
import Mathlib.Data.List.Sort

/-!
Maps with unique keys kept in key order, the behaviour of a `std::map`.

A `SortedMap K V` is the list of its entries together with the proof that the keys increase
strictly, so an unsorted map or one with a duplicate key cannot be built.

* `find?`, `insert`, `erase`, `replace`, `modify`, `mapValues`, `first?`: the operations, where
  `insert` leaves an occupied key alone and reports it, and `first?` is the entry of the smallest
  key.
* `find?_eq_some`, `mem_insert`, `mem_erase`: what is stored after each of them.
* `entries_eq_cons_of_first?`: erasing the first entry leaves the tail of the list.
* `sum_insert`, `sum_replace`: totals over the map.
* `ext_find?`: a map is determined by its lookups. `pairwise_entries` reads a relation along the
  list as one between any two entries.
-/

/-- Entries in strictly increasing key order. -/
structure SortedMap (K V : Type*) [LinearOrder K] where
  entries : List (K × V)
  sorted : (entries.map Prod.fst).Pairwise (· < ·)

namespace SortedMap

variable {K V W : Type*} [LinearOrder K]

@[ext] lemma ext {m m' : SortedMap K V} (h : m.entries = m'.entries) : m = m' := by
  cases m; cases m'; simpa using h

instance [DecidableEq V] : DecidableEq (SortedMap K V) := fun m m' =>
  decidable_of_iff (m.entries = m'.entries) ⟨ext, congrArg entries⟩

/-- The keys, in increasing order. -/
def keys (m : SortedMap K V) : List K := m.entries.map Prod.fst

/-- The keys as a set. -/
def keySet (m : SortedMap K V) : Set K := {k | k ∈ m.keys}

/-- The values, in the order of their keys. -/
def values (m : SortedMap K V) : List V := m.entries.map Prod.snd

/-- The map without entries. -/
def empty : SortedMap K V := ⟨[], List.Pairwise.nil⟩

/-- The number of entries. -/
def size (m : SortedMap K V) : ℕ := m.entries.length

def isEmpty (m : SortedMap K V) : Bool := m.entries.isEmpty

/-- The entry of the smallest key. -/
def first? (m : SortedMap K V) : Option (K × V) := m.entries.head?

def find? (m : SortedMap K V) (k : K) : Option V :=
  (m.entries.find? fun p => p.1 = k).map Prod.snd

/-- The entries with `(k, v)` put at its place. -/
def place (k : K) (v : V) (l : List (K × V)) : List (K × V) :=
  l.orderedInsert (fun p q => p.1 ≤ q.1) (k, v)

lemma map_fst_place (k : K) (v : V) (l : List (K × V)) :
    (place k v l).map Prod.fst = (l.map Prod.fst).orderedInsert (· ≤ ·) k := by
  induction l with
  | nil => rfl
  | cons p l ih =>
      rw [place] at ih
      by_cases h : k ≤ p.1
      · simp [place, h]
      · simp [place, h, ih]

lemma pairwise_place {k : K} (v : V) {l : List (K × V)} (hl : (l.map Prod.fst).Pairwise (· < ·))
    (hk : k ∉ l.map Prod.fst) : ((place k v l).map Prod.fst).Pairwise (· < ·) := by
  rw [map_fst_place]
  have hle : ((l.map Prod.fst).orderedInsert (· ≤ ·) k).Pairwise (· ≤ ·) :=
    List.Pairwise.orderedInsert k _ (hl.imp le_of_lt)
  have hnd : ((l.map Prod.fst).orderedInsert (· ≤ ·) k).Nodup :=
    (List.perm_orderedInsert _ k _).nodup_iff.mpr
      (List.nodup_cons.mpr ⟨hk, hl.imp ne_of_lt⟩)
  exact (List.pairwise_and_iff.mpr ⟨hle, hnd⟩).imp fun h => lt_of_le_of_ne h.1 h.2

/-- Insertion at a free key; an occupied key keeps its value. The flag tells whether
the insertion took place. -/
def insert (m : SortedMap K V) (k : K) (v : V) : SortedMap K V × Bool :=
  if h : k ∈ m.keys then (m, false) else (⟨place k v m.entries, pairwise_place v m.sorted h⟩, true)

def erase (m : SortedMap K V) (k : K) : SortedMap K V :=
  ⟨m.entries.filter fun p => p.1 ≠ k, m.sorted.sublist (List.filter_sublist.map _)⟩

/-- Every value rewritten by `f`, which may look at the key. -/
def mapWithKey (f : K → V → W) (m : SortedMap K V) : SortedMap K W :=
  ⟨m.entries.map fun p => (p.1, f p.1 p.2), by simpa [Function.comp_def] using m.sorted⟩

/-- Every value rewritten by `f`. -/
def mapValues (f : V → W) (m : SortedMap K V) : SortedMap K W := m.mapWithKey fun _ => f

/-- The value at `k` overwritten, nothing being done at a free key. -/
def replace (m : SortedMap K V) (k : K) (v : V) : SortedMap K V :=
  m.mapWithKey fun k' v' => if k' = k then v else v'

/-- The value at `k` rewritten by `f`, nothing being done at a free key. -/
def modify (m : SortedMap K V) (k : K) (f : V → V) : SortedMap K V :=
  m.mapWithKey fun k' v => if k' = k then f v else v

variable {m : SortedMap K V} {k k' : K} {v v' : V}

/-! ### Keys and lookups -/

lemma keys_nodup (m : SortedMap K V) : m.keys.Nodup := m.sorted.imp ne_of_lt

lemma mem_keys : k ∈ m.keys ↔ ∃ v, (k, v) ∈ m.entries := by
  simp [keys]

@[simp] lemma mem_keySet : k ∈ m.keySet ↔ k ∈ m.keys := Iff.rfl

lemma finite_keySet (m : SortedMap K V) : m.keySet.Finite := m.keys.finite_toSet

lemma mem_keys_of_mem (h : (k, v) ∈ m.entries) : k ∈ m.keys := mem_keys.mpr ⟨v, h⟩

/-- A key holds one value. -/
lemma value_unique (h : (k, v) ∈ m.entries) (h' : (k, v') ∈ m.entries) : v = v' := by
  have := List.inj_on_of_nodup_map m.keys_nodup h h' rfl
  simpa using this

lemma find?_eq_some : m.find? k = some v ↔ (k, v) ∈ m.entries := by
  constructor
  · intro h
    obtain ⟨⟨k₀, v₀⟩, hp, rfl⟩ := Option.map_eq_some_iff.mp h
    have hk : k₀ = k := by simpa using List.find?_some hp
    subst hk
    exact List.mem_of_find?_eq_some hp
  · intro h
    cases hf : m.entries.find? (fun p => p.1 = k) with
    | none =>
        have := List.find?_eq_none.mp hf (k, v) h
        simp at this
    | some p =>
        obtain ⟨k₀, v₀⟩ := p
        have hk : k₀ = k := by simpa using List.find?_some hf
        subst hk
        rw [find?, hf, Option.map_some, value_unique (List.mem_of_find?_eq_some hf) h]

lemma find?_eq_none : m.find? k = none ↔ k ∉ m.keys := by
  rw [Option.eq_none_iff_forall_ne_some, mem_keys, not_exists]
  exact forall_congr' fun v => not_congr find?_eq_some

lemma find?_isSome : (m.find? k).isSome ↔ k ∈ m.keys := by
  rw [← not_iff_not, Bool.not_eq_true, Option.isSome_eq_false_iff, Option.isNone_iff_eq_none,
    find?_eq_none]

lemma exists_find? (h : k ∈ m.keys) : ∃ v, m.find? k = some v :=
  Option.isSome_iff_exists.mp (find?_isSome.mpr h)

lemma pairwise_entries_lt (m : SortedMap K V) : m.entries.Pairwise fun p q => p.1 < q.1 :=
  List.pairwise_map.mp m.sorted

/-- What holds along the list of entries is what holds of any two of them in the order of their
keys. -/
lemma pairwise_entries {R : K × V → K × V → Prop} : m.entries.Pairwise R ↔
    ∀ p ∈ m.entries, ∀ q ∈ m.entries, p.1 < q.1 → R p q := by
  constructor
  · intro hR p hp q hq
    have hforth : m.entries.Pairwise fun p q => p.1 < q.1 → R p q :=
      hR.imp fun {p q} h (_ : p.1 < q.1) => h
    have hback : m.entries.Pairwise (flip fun p q => p.1 < q.1 → R p q) :=
      m.pairwise_entries_lt.imp fun hlt hgt => absurd hgt (not_lt.mpr hlt.le)
    exact hforth.forall_of_forall_of_flip (fun p _ hlt => absurd hlt (lt_irrefl _)) hback hp hq
  · intro h
    exact m.pairwise_entries_lt.imp_of_mem fun hp hq hlt => h _ hp _ hq hlt

/-- A map is determined by its lookups. -/
lemma ext_find? {m m' : SortedMap K V} (h : ∀ k, m.find? k = m'.find? k) : m = m' := by
  have hmem : ∀ p, p ∈ m.entries ↔ p ∈ m'.entries := fun ⟨k, v⟩ => by
    rw [← find?_eq_some, h, find?_eq_some]
  have hperm : m.entries.Perm m'.entries :=
    (List.perm_ext_iff_of_nodup (m.keys_nodup.of_map _) (m'.keys_nodup.of_map _)).mpr hmem
  exact ext (hperm.eq_of_pairwise (fun p q _ _ h₁ h₂ => absurd h₁ (not_lt.mpr h₂.le))
    m.pairwise_entries_lt m'.pairwise_entries_lt)

/-- The set of keys determines their list. -/
lemma keys_eq_of_keySet_eq {m : SortedMap K V} {m' : SortedMap K W} (h : m.keySet = m'.keySet) :
    m.keys = m'.keys := by
  have hmem : ∀ k, k ∈ m.keys ↔ k ∈ m'.keys := fun k => by
    rw [← mem_keySet, h, mem_keySet]
  have hperm := (List.perm_ext_iff_of_nodup m.keys_nodup m'.keys_nodup).mpr hmem
  exact hperm.eq_of_pairwise (fun _ _ _ _ h₁ h₂ => absurd h₁ (not_lt.mpr h₂.le)) m.sorted m'.sorted

/-! ### The empty map and the first entry -/

@[simp] lemma entries_empty : (empty : SortedMap K V).entries = [] := rfl

@[simp] lemma keys_empty : (empty : SortedMap K V).keys = [] := rfl

@[simp] lemma values_empty : (empty : SortedMap K V).values = [] := rfl

@[simp] lemma find?_empty : (empty : SortedMap K V).find? k = none := rfl

@[simp] lemma size_empty : (empty : SortedMap K V).size = 0 := rfl

@[simp] lemma length_values : m.values.length = m.size := List.length_map _

@[simp] lemma isEmpty_eq_true : m.isEmpty = true ↔ m = empty := by
  rw [isEmpty, List.isEmpty_iff]
  exact ⟨fun h => ext h, fun h => h ▸ rfl⟩

@[simp] lemma isEmpty_eq_false : m.isEmpty = false ↔ m ≠ empty := by
  rw [Ne, ← isEmpty_eq_true, Bool.not_eq_true]

lemma size_eq_zero : m.size = 0 ↔ m = empty := by
  rw [size, List.length_eq_zero_iff]
  exact ⟨fun h => ext h, fun h => h ▸ rfl⟩

lemma values_eq_nil : m.values = [] ↔ m = empty := by
  rw [← size_eq_zero, size, values, ← List.length_eq_zero_iff, List.length_map]

lemma first?_eq_none : m.first? = none ↔ m = empty := by
  rw [first?, List.head?_eq_none_iff]
  exact ⟨fun h => ext h, fun h => h ▸ rfl⟩

lemma exists_first? (h : m ≠ empty) : ∃ k v, m.first? = some (k, v) := by
  cases hf : m.first? with
  | none => exact absurd (first?_eq_none.mp hf) h
  | some p => exact ⟨p.1, p.2, rfl⟩

lemma mem_of_first? (h : m.first? = some (k, v)) : (k, v) ∈ m.entries :=
  List.mem_of_head? h

/-- The first key is the smallest. -/
lemma le_of_first? (h : m.first? = some (k, v)) (hk : k' ∈ m.keys) : k ≤ k' := by
  obtain ⟨l, hl⟩ := List.head?_eq_some_iff.mp h
  have hs := m.sorted
  simp only [keys, hl, List.map_cons, List.pairwise_cons, List.mem_cons] at hs hk
  rcases hk with rfl | hk
  · exact le_rfl
  · exact (hs.1 k' hk).le

/-- The number of keys after `t`. -/
def countAfter (m : SortedMap K V) (t : K) : ℕ := (m.keys.filter (t < ·)).length

/-- A key on the way leaves fewer of them ahead. -/
lemma countAfter_lt {t : K} (h : k ∈ m.keys) (htk : t < k) : m.countAfter k < m.countAfter t := by
  have hmem : k ∈ m.keys.filter (t < ·) := List.mem_filter.mpr ⟨h, by simpa using htk⟩
  have hsub : m.keys.filter (k < ·) ⊆ (m.keys.filter (t < ·)).erase k := by
    intro x hx
    simp only [List.mem_filter, decide_eq_true_eq] at hx
    rw [(m.keys_nodup.filter _).mem_erase_iff, List.mem_filter]
    exact ⟨hx.2.ne', hx.1, by simpa using htk.trans hx.2⟩
  have hle := ((m.keys_nodup.filter _).subperm hsub).length_le
  have hpos := List.length_pos_of_mem hmem
  rw [List.length_erase_of_mem hmem] at hle
  rw [countAfter, countAfter]
  omega

/-! ### Erasing -/

@[simp] lemma mem_erase {p : K × V} : p ∈ (m.erase k).entries ↔ p ∈ m.entries ∧ p.1 ≠ k := by
  simp [erase]

@[simp] lemma mem_keys_erase : k' ∈ (m.erase k).keys ↔ k' ∈ m.keys ∧ k' ≠ k := by
  simp only [mem_keys, mem_erase, exists_and_right]

/-- Erasing the first entry leaves the others, in their order. -/
lemma entries_eq_cons_of_first? (h : m.first? = some (k, v)) :
    m.entries = (k, v) :: (m.erase k).entries := by
  obtain ⟨l, hl⟩ := List.head?_eq_some_iff.mp h
  have hs := m.sorted
  simp only [hl, List.map_cons, List.pairwise_cons] at hs
  have htail : l.filter (fun p => p.1 ≠ k) = l :=
    List.filter_eq_self.mpr fun p hp => by simpa using (hs.1 p.1 (List.mem_map_of_mem hp)).ne'
  simp only [erase, hl, List.filter_cons]
  simpa using htail.symm

lemma size_erase_first (h : m.first? = some (k, v)) : (m.erase k).size + 1 = m.size := by
  rw [size, size, entries_eq_cons_of_first? h, List.length_cons]

lemma values_eq_cons_of_first? (h : m.first? = some (k, v)) :
    m.values = v :: (m.erase k).values := by
  rw [values, entries_eq_cons_of_first? h, List.map_cons, values]

/-! ### Inserting -/

lemma insert_of_mem (h : k ∈ m.keys) (v : V) : m.insert k v = (m, false) := by
  rw [insert, dif_pos h]

lemma insert_snd : (m.insert k v).2 = true ↔ k ∉ m.keys := by
  by_cases h : k ∈ m.keys <;> simp [insert, h]

lemma insert_perm (h : k ∉ m.keys) (v : V) :
    (m.insert k v).1.entries.Perm ((k, v) :: m.entries) := by
  rw [insert, dif_neg h]
  exact List.perm_orderedInsert _ _ _

lemma mem_insert (h : k ∉ m.keys) {p : K × V} :
    p ∈ (m.insert k v).1.entries ↔ p = (k, v) ∨ p ∈ m.entries := by
  rw [(insert_perm h v).mem_iff, List.mem_cons]

lemma mem_keys_insert (h : k ∉ m.keys) : k' ∈ (m.insert k v).1.keys ↔ k' = k ∨ k' ∈ m.keys := by
  simp only [mem_keys, mem_insert h, Prod.mk.injEq]
  constructor
  · rintro ⟨w, ⟨rfl, -⟩ | hw⟩
    · exact Or.inl rfl
    · exact Or.inr ⟨w, hw⟩
  · rintro (rfl | ⟨w, hw⟩)
    · exact ⟨v, Or.inl ⟨rfl, rfl⟩⟩
    · exact ⟨w, Or.inr hw⟩

lemma keySet_insert (h : k ∉ m.keys) (v : V) : (m.insert k v).1.keySet = Insert.insert k m.keySet :=
  Set.ext fun _ => mem_keys_insert h

lemma find?_insert (h : k ∉ m.keys) (v : V) (k' : K) :
    (m.insert k v).1.find? k' = if k' = k then some v else m.find? k' := by
  split_ifs with hk
  · exact find?_eq_some.mpr ((mem_insert h).mpr (Or.inl (by rw [hk])))
  · apply Option.ext
    intro w
    rw [find?_eq_some, find?_eq_some, mem_insert h]
    simp [hk]

/-! ### Rewriting the values -/

@[simp] lemma keys_mapWithKey (f : K → V → W) : (m.mapWithKey f).keys = m.keys := by
  simp [keys, mapWithKey, Function.comp_def]

@[simp] lemma find?_mapWithKey (f : K → V → W) :
    (m.mapWithKey f).find? k = (m.find? k).map (f k) := by
  cases h : m.find? k with
  | none =>
      rw [Option.map_none, find?_eq_none, keys_mapWithKey]
      exact find?_eq_none.mp h
  | some v =>
      rw [Option.map_some, find?_eq_some]
      exact List.mem_map.mpr ⟨(k, v), find?_eq_some.mp h, rfl⟩

@[simp] lemma keys_mapValues (f : V → W) : (m.mapValues f).keys = m.keys := keys_mapWithKey _

@[simp] lemma find?_mapValues (f : V → W) : (m.mapValues f).find? k = (m.find? k).map f :=
  find?_mapWithKey _

@[simp] lemma keys_replace : (m.replace k v).keys = m.keys := keys_mapWithKey _

lemma find?_replace (k' : K) :
    (m.replace k v).find? k' = if k' = k then (m.find? k).map fun _ => v else m.find? k' := by
  rw [replace, find?_mapWithKey]
  split_ifs with h
  · rw [h]
  · rw [Option.map_id']

@[simp] lemma keys_modify (f : V → V) : (m.modify k f).keys = m.keys := keys_mapWithKey _

lemma find?_modify (f : V → V) (k' : K) :
    (m.modify k f).find? k' = if k' = k then (m.find? k).map f else m.find? k' := by
  rw [modify, find?_mapWithKey]
  split_ifs with h
  · rw [h]
  · rw [Option.map_id']

lemma modify_of_notMem (h : k ∉ m.keys) (f : V → V) : m.modify k f = m := by
  refine ext_find? fun k' => ?_
  rw [find?_modify]
  split_ifs with hk
  · rw [hk, find?_eq_none.mpr h, Option.map_none]
  · rfl

lemma replace_eq_modify {f : V → V} (h : m.find? k = some v) :
    m.replace k (f v) = m.modify k f := by
  refine ext_find? fun k' => ?_
  rw [find?_replace, find?_modify, h, Option.map_some, Option.map_some]

/-! ### Totals over the map -/

section Sum

variable {M : Type*} [AddCommMonoid M] (f : V → M)

/-- The total of `f` over the values. -/
def sum (m : SortedMap K V) : M := (m.values.map f).sum

@[simp] lemma sum_empty : (empty : SortedMap K V).sum f = 0 := rfl

lemma sum_insert (h : k ∉ m.keys) (v : V) : (m.insert k v).1.sum f = f v + m.sum f := by
  have hp := (((insert_perm h v).map Prod.snd).map f).sum_eq
  simpa [sum, values] using hp

lemma sum_mapValues (g : V → W) (f : W → M) : (m.mapValues g).sum f = m.sum fun v => f (g v) := by
  simp [sum, values, mapValues, mapWithKey, Function.comp_def]

private lemma sum_overwrite (v : V) : ∀ {l : List (K × V)} {v₀ : V}, (l.map Prod.fst).Nodup →
    (k, v₀) ∈ l →
    ((l.map fun p => if p.1 = k then v else p.2).map f).sum + f v₀
      = ((l.map Prod.snd).map f).sum + f v
  | [], _, _, h => absurd h List.not_mem_nil
  | p :: l, v₀, hnd, h => by
      simp only [List.map_cons, List.nodup_cons] at hnd
      rcases List.mem_cons.mp h with rfl | h
      · have hrest : (l.map fun p => if p.1 = k then v else p.2) = l.map Prod.snd :=
          List.map_congr_left fun q hq => by
            rw [if_neg fun he => hnd.1 (List.mem_map.mpr ⟨q, hq, he⟩)]
        simp only [List.map_cons, hrest, List.sum_cons, if_true]
        rw [add_right_comm, add_comm (f v) (f v₀), add_right_comm (f v₀) _ (f v)]
      · have hp : p.1 ≠ k := fun he => hnd.1 (he ▸ List.mem_map.mpr ⟨_, h, rfl⟩)
        simp only [List.map_cons, List.sum_cons, if_neg hp, add_assoc,
          sum_overwrite v hnd.2 h]

/-- Overwriting one value exchanges its share of the total. -/
lemma sum_replace {v₀ : V} (h : m.find? k = some v₀) (v : V) :
    (m.replace k v).sum f + f v₀ = m.sum f + f v := by
  have := sum_overwrite f v m.keys_nodup (find?_eq_some.mp h)
  simpa [sum, values, replace, mapWithKey, Function.comp_def] using this

lemma sum_modify {v₀ : V} (h : m.find? k = some v₀) (g : V → V) :
    (m.modify k g).sum f + f v₀ = m.sum f + f (g v₀) := by
  rw [← replace_eq_modify h, sum_replace f h]

/-- A value rewritten without a change to its share leaves the total alone. -/
lemma sum_modify_of_eq {g : V → V} (hg : ∀ v, f (g v) = f v) : (m.modify k g).sum f = m.sum f := by
  have hvalue : ∀ p : K × V, f (if p.1 = k then g p.2 else p.2) = f p.2 := fun p => by
    split_ifs
    · exact hg p.2
    · rfl
  simp [sum, values, modify, mapWithKey, Function.comp_def, hvalue]

end Sum

/-- A share is at most the total. -/
lemma le_sum (f : V → ℕ) (h : m.find? k = some v) : f v ≤ m.sum f := by
  have hv : v ∈ m.values := List.mem_map.mpr ⟨(k, v), find?_eq_some.mp h, rfl⟩
  exact List.single_le_sum (fun _ _ => Nat.zero_le _) _ (List.mem_map_of_mem hv)

end SortedMap
