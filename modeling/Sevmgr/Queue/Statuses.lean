import Mathlib.Data.BitVec
import Sevmgr.Model.EventQueue

/-!
What the status methods of `EventQueue` do to the status map, type by type and in total.

* `addedStatus`, `find?_addStatus`, `sum_addStatus`: after `addStatus`.
* `updateStatus_of_registered`, `updateStatus_of_unregistered`: `updateStatus` in its two cases.
* `sum_addStatus_of_added`, `sum_updateStatus_of_eq`, `sum_actualNb_updateStatus`: the totals that
  they move and those that they leave.
* The remaining attributes are those before the call.
-/

namespace Sevmgr

namespace EventQueue

variable {T C : Type} [Stdair T] {w : ℕ} {q : EventQueue T C w}

/-! ### Adding a status -/

/-- The status of `t` once `n` expected events have been added to it. -/
def addedStatus (q : EventQueue T C w) (t : T) (n : ℚ) : ProgressStatus w :=
  match q.progressStatusMap.find? t with
  | none => .ofExpected (staticCast w ⌊n⌋)
  | some s => ⟨0, s.expectedNb + staticCast w ⌊n⌋, s.actualNb + staticCast w ⌊n⌋⟩

/-- The current number of a type is set to zero by `addStatus`, whatever it was. -/
@[simp] lemma currentNb_addedStatus (t : T) (n : ℚ) : (q.addedStatus t n).currentNb = 0 := by
  rw [addedStatus]
  cases q.progressStatusMap.find? t <;> rfl

/-- The overall status once `n` expected events have been added. -/
def addedOverall (q : EventQueue T C w) (n : ℚ) : ProgressStatus w :=
  { q.progressStatus with
    expectedNb := staticCast w (q.progressStatus.expectedNb.toNat + n)
    actualNb := staticCast w (q.progressStatus.actualNb.toNat + n) }

lemma addStatus_of_unregistered {t : T} (h : t ∉ q.progressStatusMap.keys) (n : ℚ) :
    q.addStatus t n = { q with
      progressStatus := q.addedOverall n
      progressStatusMap := (q.progressStatusMap.insert t (q.addedStatus t n)).1 } := by
  have hnone := SortedMap.find?_eq_none.mpr h
  simp only [addStatus, updateProgressStatus, addedStatus, addedOverall, hnone]

lemma addStatus_of_registered {t : T} (h : t ∈ q.progressStatusMap.keys) (n : ℚ) :
    q.addStatus t n = { q with
      progressStatus := q.addedOverall n
      progressStatusMap := q.progressStatusMap.replace t (q.addedStatus t n) } := by
  obtain ⟨s, hs⟩ := SortedMap.exists_find? h
  simp only [addStatus, updateProgressStatus, addedStatus, addedOverall, hs]
  rfl

@[simp] lemma progressStatus_addStatus (t : T) (n : ℚ) :
    (q.addStatus t n).progressStatus = q.addedOverall n := by
  by_cases h : t ∈ q.progressStatusMap.keys
  · rw [addStatus_of_registered h]
  · rw [addStatus_of_unregistered h]

@[simp] lemma eventList_addStatus (t : T) (n : ℚ) : (q.addStatus t n).eventList = q.eventList := by
  by_cases h : t ∈ q.progressStatusMap.keys
  · rw [addStatus_of_registered h]
  · rw [addStatus_of_unregistered h]

@[simp] lemma key_addStatus (t : T) (n : ℚ) : (q.addStatus t n).key = q.key := by
  by_cases h : t ∈ q.progressStatusMap.keys
  · rw [addStatus_of_registered h]
  · rw [addStatus_of_unregistered h]

lemma find?_addStatus (t : T) (n : ℚ) (t' : T) :
    (q.addStatus t n).progressStatusMap.find? t'
      = if t' = t then some (q.addedStatus t n) else q.progressStatusMap.find? t' := by
  by_cases h : t ∈ q.progressStatusMap.keys
  · obtain ⟨s, hs⟩ := SortedMap.exists_find? h
    rw [addStatus_of_registered h, SortedMap.find?_replace, hs, Option.map_some]
  · rw [addStatus_of_unregistered h, SortedMap.find?_insert h]

lemma mem_keys_addStatus (t : T) (n : ℚ) (t' : T) :
    t' ∈ (q.addStatus t n).progressStatusMap.keys ↔ t' = t ∨ t' ∈ q.progressStatusMap.keys := by
  rw [← SortedMap.find?_isSome, find?_addStatus, ← SortedMap.find?_isSome]
  split_ifs with h
  · simp [h]
  · simp [h]

/-- The share of a type in a total. -/
def share {M : Type} [Zero M] (f : ProgressStatus w → M) (q : EventQueue T C w) (t : T) : M :=
  (q.progressStatusMap.find? t).elim 0 f

lemma share_of_find? {M : Type} [Zero M] {f : ProgressStatus w → M} {t : T} {s : ProgressStatus w}
    (h : q.progressStatusMap.find? t = some s) : q.share f t = f s := by
  rw [share, h, Option.elim_some]

lemma share_of_notMem {M : Type} [Zero M] {f : ProgressStatus w → M} {t : T}
    (h : t ∉ q.progressStatusMap.keys) : q.share f t = 0 := by
  rw [share, SortedMap.find?_eq_none.mpr h, Option.elim_none]

/-- Adding a status exchanges the share of its type in every total. -/
lemma sum_addStatus {M : Type} [AddCommMonoid M] (f : ProgressStatus w → M) (t : T) (n : ℚ) :
    (q.addStatus t n).progressStatusMap.sum f + q.share f t
      = q.progressStatusMap.sum f + f (q.addedStatus t n) := by
  by_cases h : t ∈ q.progressStatusMap.keys
  · obtain ⟨s, hs⟩ := SortedMap.exists_find? h
    rw [addStatus_of_registered h, share_of_find? hs, SortedMap.sum_replace f hs]
  · rw [addStatus_of_unregistered h, share_of_notMem h, SortedMap.sum_insert f h, add_zero,
      add_comm]

/-- A number to which `d` is added for the type has `d` added in total. -/
lemma sum_addStatus_of_added {M : Type} [AddCancelCommMonoid M] {f : ProgressStatus w → M} {t : T}
    {n : ℚ} {d : M} (h : f (q.addedStatus t n) = q.share f t + d) :
    (q.addStatus t n).progressStatusMap.sum f = q.progressStatusMap.sum f + d := by
  have hsum := sum_addStatus f (q := q) t n
  rw [h, add_left_comm, add_comm] at hsum
  exact add_left_cancel hsum

lemma expectedNb_addedStatus (t : T) (n : ℚ) : (q.addedStatus t n).expectedNb
    = q.share ProgressStatus.expectedNb t + staticCast w ⌊n⌋ := by
  rw [addedStatus, share]
  cases q.progressStatusMap.find? t with
  | none => exact (zero_add _).symm
  | some s => rfl

lemma actualNb_addedStatus (t : T) (n : ℚ) : (q.addedStatus t n).actualNb
    = q.share ProgressStatus.actualNb t + staticCast w ⌊n⌋ := by
  rw [addedStatus, share]
  cases q.progressStatusMap.find? t with
  | none => exact (zero_add _).symm
  | some s => rfl

/-! ### Updating a status -/

lemma updateStatus_of_unregistered {t : T} (h : t ∉ q.progressStatusMap.keys) (n : ℚ) :
    q.updateStatus t n = q := by
  rw [updateStatus, SortedMap.find?_eq_none.mpr h]

lemma updateStatus_of_registered {t : T} {s : ProgressStatus w}
    (h : q.progressStatusMap.find? t = some s) (n : ℚ) :
    q.updateStatus t n = { q with
      progressStatus := { q.progressStatus with
        actualNb := q.progressStatus.actualNb + (staticCast w ⌊n⌋ - s.actualNb) }
      progressStatusMap :=
        q.progressStatusMap.replace t { s with actualNb := staticCast w ⌊n⌋ } } := by
  rw [updateStatus, h]

lemma progressStatusMap_updateStatus {t : T} {s : ProgressStatus w}
    (h : q.progressStatusMap.find? t = some s) (n : ℚ) :
    (q.updateStatus t n).progressStatusMap
      = q.progressStatusMap.replace t { s with actualNb := staticCast w ⌊n⌋ } := by
  rw [updateStatus_of_registered h]

lemma actualNb_updateStatus {t : T} {s : ProgressStatus w}
    (h : q.progressStatusMap.find? t = some s) (n : ℚ) :
    (q.updateStatus t n).progressStatus.actualNb
      = q.progressStatus.actualNb + (staticCast w ⌊n⌋ - s.actualNb) := by
  rw [updateStatus_of_registered h]

@[simp] lemma expectedNb_updateStatus (t : T) (n : ℚ) :
    (q.updateStatus t n).progressStatus.expectedNb = q.progressStatus.expectedNb := by
  rw [updateStatus]
  cases q.progressStatusMap.find? t <;> rfl

@[simp] lemma eventList_updateStatus (t : T) (n : ℚ) :
    (q.updateStatus t n).eventList = q.eventList := by
  rw [updateStatus]
  cases q.progressStatusMap.find? t <;> rfl

@[simp] lemma currentNb_updateStatus (t : T) (n : ℚ) :
    (q.updateStatus t n).progressStatus.currentNb = q.progressStatus.currentNb := by
  rw [updateStatus]
  cases q.progressStatusMap.find? t <;> rfl

@[simp] lemma keys_updateStatus (t : T) (n : ℚ) :
    (q.updateStatus t n).progressStatusMap.keys = q.progressStatusMap.keys := by
  by_cases h : t ∈ q.progressStatusMap.keys
  · obtain ⟨s, hs⟩ := SortedMap.exists_find? h
    rw [updateStatus_of_registered hs, SortedMap.keys_replace]
  · rw [updateStatus_of_unregistered h]

lemma find?_updateStatus (t : T) (n : ℚ) (t' : T) :
    (q.updateStatus t n).progressStatusMap.find? t' = (q.progressStatusMap.find? t').map
      fun s => if t' = t then { s with actualNb := staticCast w ⌊n⌋ } else s := by
  by_cases h : t ∈ q.progressStatusMap.keys
  · obtain ⟨s, hs⟩ := SortedMap.exists_find? h
    rw [updateStatus_of_registered hs, SortedMap.find?_replace]
    split_ifs with ht
    · rw [ht, hs, Option.map_some, Option.map_some]
    · rw [Option.map_id']
  · rw [updateStatus_of_unregistered h]
    cases hf : q.progressStatusMap.find? t' with
    | none => rfl
    | some s =>
        have ht : t' ≠ t := fun he =>
          h (he ▸ SortedMap.mem_keys_of_mem (SortedMap.find?_eq_some.mp hf))
        rw [Option.map_some, if_neg ht]

/-- A number other than the actual one keeps its total. -/
lemma sum_updateStatus_of_eq {M : Type} [AddCancelCommMonoid M] {f : ProgressStatus w → M}
    (hf : ∀ (s : ProgressStatus w) a, f { s with actualNb := a } = f s) (t : T) (n : ℚ) :
    (q.updateStatus t n).progressStatusMap.sum f = q.progressStatusMap.sum f := by
  by_cases ht : t ∈ q.progressStatusMap.keys
  · obtain ⟨s, hs⟩ := SortedMap.exists_find? ht
    have hsum := SortedMap.sum_replace f hs { s with actualNb := staticCast w ⌊n⌋ }
    rw [hf s (staticCast w ⌊n⌋)] at hsum
    rw [progressStatusMap_updateStatus hs]
    exact add_right_cancel hsum
  · rw [updateStatus_of_unregistered ht]

/-- The total of the actual numbers moves by as much as the one that is updated, modulo `2 ^ w`. -/
lemma sum_actualNb_updateStatus {t : T} {s : ProgressStatus w}
    (h : q.progressStatusMap.find? t = some s) (n : ℚ) :
    (q.updateStatus t n).progressStatusMap.sum ProgressStatus.actualNb
      = q.progressStatusMap.sum ProgressStatus.actualNb + (staticCast w ⌊n⌋ - s.actualNb) := by
  have hsum := SortedMap.sum_replace ProgressStatus.actualNb h
    { s with actualNb := staticCast w ⌊n⌋ }
  rw [progressStatusMap_updateStatus h, ← add_sub_assoc]
  exact eq_sub_of_add_eq hsum

end EventQueue

end Sevmgr
