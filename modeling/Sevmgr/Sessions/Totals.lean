import Mathlib.Data.BitVec
import Sevmgr.Queue.Statuses
import Sevmgr.Sessions.Happenings

/-!
The expected and actual totals over a session.

`addStatus` truncates the share of the type before it is added and the totals after; `updateStatus`
moves the overall actual number by the difference of two unsigned integers.

* `staticCast_add`: truncating the sum of a count and a number is adding the truncated number, so
  that the two formulas of `addStatus` agree.
* `TotalsAgree`: the totals are the sums over the types, the expected ones as natural numbers and
  the actual ones modulo `2 ^ w`.
* `TotalsAgree.step` and `Session.totalsAgree`: one happening keeps them so, and so does a session
  in which no number leaves the range of `Count_T`.
-/

namespace Sevmgr

open EventQueue

variable {T C : Type} [Stdair T] {w : ℕ}

/-! ### Truncation -/

/-- Adding before or after the truncation makes no difference. -/
lemma staticCast_add (a : Count w) {n : ℚ} (hn : 0 ≤ n) :
    staticCast w (a.toNat + n) = a + staticCast w ⌊n⌋ := by
  have hfloor : 0 ≤ ⌊n⌋ := Int.floor_nonneg.mpr hn
  have hsum : ⌊(a.toNat : ℚ) + n⌋.toNat = a.toNat + ⌊n⌋.toNat := by
    rw [Int.floor_natCast_add]
    omega
  rw [staticCast, hsum, BitVec.ofNat_add, staticCast, Int.floor_intCast, BitVec.ofNat_toNat,
    BitVec.setWidth_eq]

/-- A number in the range is truncated to its integral part. -/
lemma toNat_staticCast_le {n : ℚ} (hn : 0 ≤ n) : ((staticCast w ⌊n⌋).toNat : ℚ) ≤ n := by
  have hfloor : 0 ≤ ⌊n⌋ := Int.floor_nonneg.mpr hn
  rw [staticCast, Int.floor_intCast, BitVec.toNat_ofNat]
  calc ((⌊n⌋.toNat % 2 ^ w : ℕ) : ℚ)
      ≤ (⌊n⌋.toNat : ℚ) := by exact_mod_cast Nat.mod_le _ _
    _ = (⌊n⌋ : ℚ) := by exact_mod_cast Int.toNat_of_nonneg hfloor
    _ ≤ n := Int.floor_le n

/-- A sum in the range does not wrap around. -/
lemma toNat_add_staticCast_lt (a : Count w) {n : ℚ} (hn : 0 ≤ n) (hrange : a.toNat + n < 2 ^ w) :
    a.toNat + (staticCast w ⌊n⌋).toNat < 2 ^ w := by
  have hle := toNat_staticCast_le (w := w) hn
  have : ((a.toNat + (staticCast w ⌊n⌋).toNat : ℕ) : ℚ) < ((2 ^ w : ℕ) : ℚ) := by
    push_cast
    linarith
  exact_mod_cast this

lemma expectedNb_addStatus {q : EventQueue T C w} (t : T) {n : ℚ} (hn : 0 ≤ n) :
    (q.addStatus t n).progressStatus.expectedNb
      = q.progressStatus.expectedNb + staticCast w ⌊n⌋ := by
  rw [progressStatus_addStatus]
  exact staticCast_add _ hn

lemma actualNb_addStatus {q : EventQueue T C w} (t : T) {n : ℚ} (hn : 0 ≤ n) :
    (q.addStatus t n).progressStatus.actualNb
      = q.progressStatus.actualNb + staticCast w ⌊n⌋ := by
  rw [progressStatus_addStatus]
  exact staticCast_add _ hn

/-! ### The totals -/

/-- The overall expected number is the sum of those of the types, and the overall actual number is
the sum of theirs modulo `2 ^ w`. -/
structure TotalsAgree (q : EventQueue T C w) : Prop where
  expected : q.progressStatus.expectedNb.toNat
    = q.progressStatusMap.sum fun s => s.expectedNb.toNat
  actual : q.progressStatus.actualNb = q.progressStatusMap.sum ProgressStatus.actualNb

/-- The numbers passed to the status calls are not negative, and they stay in the range of
`Count_T`, as do the totals to which `addStatus` adds them. -/
def Op.InRange (q : EventQueue T C w) : Op T C → Prop
  | .addStatus _ n => 0 ≤ n ∧ q.progressStatus.expectedNb.toNat + n < 2 ^ w ∧
      q.progressStatus.actualNb.toNat + n < 2 ^ w
  | .updateStatus _ n => 0 ≤ n ∧ n < 2 ^ w
  | _ => True

instance (q : EventQueue T C w) : ∀ op, Decidable (Op.InRange q op)
  | .addStatus _ n => inferInstanceAs (Decidable (0 ≤ n ∧
      (q.progressStatus.expectedNb.toNat : ℚ) + n < 2 ^ w ∧
        (q.progressStatus.actualNb.toNat : ℚ) + n < 2 ^ w))
  | .updateStatus _ n => inferInstanceAs (Decidable (0 ≤ n ∧ n < 2 ^ w))
  | .addEvent _ | .popEvent _ | .run _ | .select _ _ | .reset => .isTrue trivial

namespace TotalsAgree

variable {q q' : EventQueue T C w}

lemma fresh (key : String) : TotalsAgree (EventQueue.fresh key : EventQueue T C w) := ⟨rfl, rfl⟩

/-- The share of a type in the expected total is at most the total. -/
lemma share_le (hq : TotalsAgree q) (t : T) :
    q.share (fun s => s.expectedNb.toNat) t ≤ q.progressStatus.expectedNb.toNat := by
  rw [hq.expected]
  by_cases ht : t ∈ q.progressStatusMap.keys
  · obtain ⟨s, hs⟩ := SortedMap.exists_find? ht
    rw [share_of_find? hs]
    exact SortedMap.le_sum (fun s => s.expectedNb.toNat) hs
  · rw [share_of_notMem ht]
    exact Nat.zero_le _

lemma addStatus (hq : TotalsAgree q) (t : T) {n : ℚ} (hn : 0 ≤ n)
    (hrange : q.progressStatus.expectedNb.toNat + n < 2 ^ w) : TotalsAgree (q.addStatus t n) := by
  have hfit := toNat_add_staticCast_lt q.progressStatus.expectedNb hn hrange
  refine ⟨?_, ?_⟩
  · have hshare := hq.share_le t
    have hadded : (q.addedStatus t n).expectedNb.toNat
        = q.share (fun s => s.expectedNb.toNat) t + (staticCast w ⌊n⌋).toNat := by
      rw [addedStatus, share]
      cases hf : q.progressStatusMap.find? t with
      | none => simp [ProgressStatus.ofExpected]
      | some s =>
          rw [share_of_find? hf] at hshare
          exact BitVec.toNat_add_of_lt (by omega)
    calc (q.addStatus t n).progressStatus.expectedNb.toNat
        = q.progressStatus.expectedNb.toNat + (staticCast w ⌊n⌋).toNat := by
          rw [expectedNb_addStatus t hn, BitVec.toNat_add_of_lt hfit]
      _ = q.progressStatusMap.sum (fun s => s.expectedNb.toNat) + (staticCast w ⌊n⌋).toNat := by
          rw [hq.expected]
      _ = (q.addStatus t n).progressStatusMap.sum fun s => s.expectedNb.toNat :=
          (sum_addStatus_of_added (f := fun s => s.expectedNb.toNat) hadded).symm
  · rw [actualNb_addStatus t hn, hq.actual]
    exact (sum_addStatus_of_added (actualNb_addedStatus t n)).symm

lemma updateStatus (hq : TotalsAgree q) (t : T) (n : ℚ) : TotalsAgree (q.updateStatus t n) := by
  refine ⟨?_, ?_⟩
  · rw [expectedNb_updateStatus, sum_updateStatus_of_eq (fun _ _ => rfl), hq.expected]
  · by_cases ht : t ∈ q.progressStatusMap.keys
    · -- the delta is taken modulo `2 ^ w` too, so a lowered count is no exception
      obtain ⟨s, hs⟩ := SortedMap.exists_find? ht
      rw [actualNb_updateStatus hs, sum_actualNb_updateStatus hs, hq.actual]
    · rw [updateStatus_of_unregistered ht, hq.actual]

/-- A pop moves current numbers only. -/
lemma played (hq : TotalsAgree q) (k : ℤ) (e : EventStruct T C) : TotalsAgree (q.played k e) := by
  have hexp := SortedMap.sum_modify_of_eq (m := q.progressStatusMap) (k := e.eventType)
    (g := ProgressStatus.increment) (fun s => s.expectedNb.toNat) fun _ => rfl
  have hact := SortedMap.sum_modify_of_eq (m := q.progressStatusMap) (k := e.eventType)
    (g := ProgressStatus.increment) ProgressStatus.actualNb fun _ => rfl
  exact ⟨hq.expected.trans hexp.symm, hq.actual.trans hact.symm⟩

lemma reset (hq : TotalsAgree q) : TotalsAgree q.reset := by
  have hexp := SortedMap.sum_mapValues (m := q.progressStatusMap) ProgressStatus.reset
    fun s => s.expectedNb.toNat
  have hact := SortedMap.sum_mapValues (m := q.progressStatusMap) ProgressStatus.reset
    ProgressStatus.actualNb
  refine ⟨hq.expected.trans hexp.symm, ?_⟩
  show (0 : Count w) = (q.progressStatusMap.mapValues ProgressStatus.reset).sum _
  rw [hact]
  simp [SortedMap.sum]

/-- One happening keeps the totals in agreement. -/
theorem step {x : Happening T C} (hq : TotalsAgree q) (hx : HappensIf Op.InRange q x q') :
    TotalsAgree q' := by
  obtain ⟨hx, hrange⟩ := hx
  cases hx with
  | statusAdded t n =>
      obtain ⟨hn, hexp, -⟩ := hrange _ rfl
      exact hq.addStatus t hn hexp
  | statusUpdated t n => exact hq.updateStatus t n
  | added e => exact ⟨hq.expected, hq.actual⟩
  | popped h => exact hq.played _ _
  | cleared => exact hq.reset

/-- A call that lets the process live keeps the totals in agreement. -/
lemma exec (hq : TotalsAgree q) {op : Op T C} (hrange : op.InRange q)
    (halive : (op.exec q).outcome ≠ .aborted) : TotalsAgree (op.exec q).queue :=
  (Step.happens (l := (op, op.exec q)) ⟨rfl, halive, rfl⟩ hrange).invariant
    (fun _ _ _ hq hx => hq.step hx) hq

end TotalsAgree

/-! ### Sessions -/

/-- **The expected and actual totals stay consistent** in every state of a session in which the
numbers stay in range, whichever calls it makes and whether they return or raise. -/
theorem Session.totalsAgree {key : String} {ls : List (Exchange T C w)} {q : EventQueue T C w}
    (h : Session Op.InRange (.fresh key) ls q) : TotalsAgree q :=
  h.happens.invariant (fun _ _ _ hq hx => hq.step hx) (.fresh key)

/-- Fractional numbers, a lowered count, a type without status and a pop that raises. -/
theorem Session.totalsAgree_fractional :
    TotalsAgree ((fresh "EQ01" : EventQueue SampleType ℕ 32).after
      [.addStatus .bkgReq (7 / 2), .addStatus .bkgReq (1 / 2), .updateStatus .bkgReq 1,
        .updateStatus .brkPt 5, .addEvent (sampleEvent .brkPt 0 1),
        .popEvent (sampleEvent .bkgReq 0 0)]) :=
  Session.totalsAgree (session_exchanges (by decide +kernel))

end Sevmgr
