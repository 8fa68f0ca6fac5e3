import Sevmgr.Sessions.Totals

/-!
The order of status calls on different event types does not matter.

What a call does to the status of its type depends on that status alone, and it moves the overall
numbers by as much as the sums over the types, modulo `2 ^ w`.

* `StatusCall`, `statusCalls`: the calls of `addStatus` and `updateStatus`, and a list of them.
* `find?_statusCalls`: the status of a type depends on the calls on that type only.
* `surplus`, `surplus_statusCalls`: what the overall numbers have beyond those sums stays.
* `statusCalls_reorder`: two lists with the same calls on each type, in the same order, lead to the
  same statuses.
-/

namespace Sevmgr

open EventQueue

variable {T C : Type} [Stdair T] {w : ℕ}

/-! ### Calls -/

/-- A call of `addStatus` or of `updateStatus`. -/
inductive StatusCall (T : Type) where
  | addStatus (iType : T) (n : ℚ)
  | updateStatus (iType : T) (n : ℚ)
deriving DecidableEq

namespace StatusCall

/-- The type whose status the call works on. -/
def iType : StatusCall T → T
  | addStatus t _ | updateStatus t _ => t

/-- The number passed to the call. -/
def number : StatusCall T → ℚ
  | addStatus _ n | updateStatus _ n => n

/-- The queue after the call. -/
def exec (q : EventQueue T C w) : StatusCall T → EventQueue T C w
  | addStatus t n => q.addStatus t n
  | updateStatus t n => q.updateStatus t n

end StatusCall

/-- The queue after a list of calls. -/
def EventQueue.statusCalls (q : EventQueue T C w) (cs : List (StatusCall T)) : EventQueue T C w :=
  cs.foldl (fun q c => c.exec q) q

variable {q q' : EventQueue T C w}

/-! ### The status of a type -/

/-- A call leaves the statuses of the other types alone. -/
lemma find?_exec_of_ne {c : StatusCall T} {t : T} (h : c.iType ≠ t) :
    (c.exec q).progressStatusMap.find? t = q.progressStatusMap.find? t := by
  cases c with
  | addStatus t' n =>
      rw [StatusCall.exec, find?_addStatus, if_neg (show t ≠ t' from Ne.symm h)]
  | updateStatus t' n =>
      rw [StatusCall.exec, find?_updateStatus]
      simp only [if_neg (Ne.symm h : t ≠ t')]
      exact Option.map_id'

/-- What a call makes of the status of its type depends on that status alone. -/
lemma find?_exec_congr {c : StatusCall T} (h : q.progressStatusMap.find? c.iType
    = q'.progressStatusMap.find? c.iType) : (c.exec q).progressStatusMap.find? c.iType
      = (c.exec q').progressStatusMap.find? c.iType := by
  cases c with
  | addStatus t n =>
      have hadded : q.addedStatus t n = q'.addedStatus t n := by
        rw [addedStatus, addedStatus, show q.progressStatusMap.find? t = _ from h]
        rfl
      simp only [StatusCall.exec, StatusCall.iType, find?_addStatus, if_true, hadded]
  | updateStatus t n =>
      simp only [StatusCall.exec, find?_updateStatus]
      rw [h]

/-- **The status of a type** after a list of calls is the one after those of them on that type. -/
theorem find?_statusCalls (cs : List (StatusCall T)) {t : T}
    (h : q.progressStatusMap.find? t = q'.progressStatusMap.find? t) :
    (q.statusCalls cs).progressStatusMap.find? t
      = (q'.statusCalls (cs.filter fun c => c.iType = t)).progressStatusMap.find? t := by
  induction cs generalizing q q' with
  | nil => exact h
  | cons c cs ih =>
      by_cases ht : c.iType = t
      · rw [List.filter_cons_of_pos (by simpa using ht)]
        subst ht
        exact ih (find?_exec_congr h)
      · rw [List.filter_cons_of_neg (by simpa using ht)]
        exact ih ((find?_exec_of_ne ht).trans h)

/-! ### The overall status -/

/-- What an overall number has beyond the sum over the types. -/
def surplus (f : ProgressStatus w → Count w) (q : EventQueue T C w) : Count w :=
  f q.progressStatus - q.progressStatusMap.sum f

/-- A number to which `addStatus` adds the same truncated number overall and for the type keeps its
surplus. -/
lemma surplus_addStatus {f : ProgressStatus w → Count w} {t : T} {n : ℚ}
    (hall : f (q.addStatus t n).progressStatus = f q.progressStatus + staticCast w ⌊n⌋)
    (htype : f (q.addedStatus t n) = q.share f t + staticCast w ⌊n⌋) :
    surplus f (q.addStatus t n) = surplus f q := by
  rw [surplus, surplus, hall, sum_addStatus_of_added htype, add_sub_add_right_eq_sub]

/-- `updateStatus` does not touch an expected number, and it moves the two actual numbers by one
difference, whether or not that wraps around. -/
lemma surplus_updateStatus (t : T) (n : ℚ) :
    surplus ProgressStatus.expectedNb (q.updateStatus t n) = surplus ProgressStatus.expectedNb q ∧
      surplus ProgressStatus.actualNb (q.updateStatus t n) = surplus ProgressStatus.actualNb q := by
  refine ⟨?_, ?_⟩
  · rw [surplus, surplus, expectedNb_updateStatus, sum_updateStatus_of_eq (fun _ _ => rfl)]
  · by_cases ht : t ∈ q.progressStatusMap.keys
    · obtain ⟨s, hs⟩ := SortedMap.exists_find? ht
      rw [surplus, surplus, actualNb_updateStatus hs, sum_actualNb_updateStatus hs,
        add_sub_add_right_eq_sub]
    · rw [updateStatus_of_unregistered ht]

/-- One call keeps the surpluses and the overall current number. -/
lemma surplus_exec {c : StatusCall T} (hn : 0 ≤ c.number) :
    surplus ProgressStatus.expectedNb (c.exec q) = surplus ProgressStatus.expectedNb q ∧
      surplus ProgressStatus.actualNb (c.exec q) = surplus ProgressStatus.actualNb q ∧
      (c.exec q).progressStatus.currentNb = q.progressStatus.currentNb := by
  cases c with
  | addStatus t n =>
      refine ⟨surplus_addStatus (expectedNb_addStatus t hn) (expectedNb_addedStatus t n),
        surplus_addStatus (actualNb_addStatus t hn) (actualNb_addedStatus t n), ?_⟩
      rw [StatusCall.exec, progressStatus_addStatus]
      rfl
  | updateStatus t n =>
      obtain ⟨hexp, hact⟩ := surplus_updateStatus (q := q) t n
      exact ⟨hexp, hact, currentNb_updateStatus t n⟩

/-- **A list of calls** keeps them as well. -/
theorem surplus_statusCalls {cs : List (StatusCall T)} (hcs : ∀ c ∈ cs, 0 ≤ c.number) :
    surplus ProgressStatus.expectedNb (q.statusCalls cs) = surplus ProgressStatus.expectedNb q ∧
      surplus ProgressStatus.actualNb (q.statusCalls cs) = surplus ProgressStatus.actualNb q ∧
      (q.statusCalls cs).progressStatus.currentNb = q.progressStatus.currentNb := by
  induction cs generalizing q with
  | nil => exact ⟨rfl, rfl, rfl⟩
  | cons c cs ih =>
      obtain ⟨hexp, hact, hcur⟩ := surplus_exec (q := q) (hcs c List.mem_cons_self)
      obtain ⟨hexp', hact', hcur'⟩ := ih (q := c.exec q) fun c' hc' =>
        hcs c' (List.mem_cons_of_mem _ hc')
      exact ⟨hexp'.trans hexp, hact'.trans hact, hcur'.trans hcur⟩

/-! ### Reordering -/

/-- **Status calls on different event types are independent of order.** A reordering of a list of
calls that keeps the order of the calls on each type leads to the same status map and to the same
overall status, also when counts are lowered or types are not registered yet. -/
theorem statusCalls_reorder (q : EventQueue T C w) {cs cs' : List (StatusCall T)}
    (hcs : ∀ c ∈ cs, 0 ≤ c.number) (hperm : cs.Perm cs')
    (horder : ∀ t, cs.filter (fun c => c.iType = t) = cs'.filter fun c => c.iType = t) :
    (q.statusCalls cs).progressStatusMap = (q.statusCalls cs').progressStatusMap ∧
      (q.statusCalls cs).progressStatus = (q.statusCalls cs').progressStatus := by
  have hmap : (q.statusCalls cs).progressStatusMap = (q.statusCalls cs').progressStatusMap := by
    refine SortedMap.ext_find? fun t => ?_
    rw [find?_statusCalls cs rfl, horder t, ← find?_statusCalls cs' rfl]
  have hcs' : ∀ c ∈ cs', 0 ≤ c.number := fun c hc => hcs c (hperm.mem_iff.mpr hc)
  obtain ⟨hexp, hact, hcur⟩ := surplus_statusCalls (q := q) hcs
  obtain ⟨hexp', hact', hcur'⟩ := surplus_statusCalls (q := q) hcs'
  -- equal surpluses over equal sums
  refine ⟨hmap, ProgressStatus.ext (hcur.trans hcur'.symm) ?_ ?_⟩
  · have h := hexp.trans hexp'.symm
    rw [surplus, surplus, hmap] at h
    exact sub_left_injective h
  · have h := hact.trans hact'.symm
    rw [surplus, surplus, hmap] at h
    exact sub_left_injective h

/-- Fractional numbers, a lowered count, and break points updated before and after they have a
status. -/
theorem statusCalls_reorder_sample :
    let q : EventQueue SampleType ℕ 32 := fresh "EQ01"
    let cs : List (StatusCall SampleType) := [.addStatus .bkgReq (7 / 2), .updateStatus .brkPt 5,
      .updateStatus .bkgReq 1, .addStatus .brkPt (5 / 2), .updateStatus .brkPt 1]
    let cs' : List (StatusCall SampleType) := [.updateStatus .brkPt 5, .addStatus .brkPt (5 / 2),
      .addStatus .bkgReq (7 / 2), .updateStatus .brkPt 1, .updateStatus .bkgReq 1]
    (q.statusCalls cs).progressStatusMap = (q.statusCalls cs').progressStatusMap ∧
      (q.statusCalls cs).progressStatus = (q.statusCalls cs').progressStatus :=
  statusCalls_reorder (fresh "EQ01") (by decide +kernel) (by decide +kernel) fun t => by
    cases t <;> decide +kernel

end Sevmgr
