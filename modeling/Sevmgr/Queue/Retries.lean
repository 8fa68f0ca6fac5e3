import Sevmgr.Queue.AddEvent

/-!
How often `EventQueue::addEvent` tries again.

The source bounds the attempts at one thousand, but the counter it tests is a constant, and so the
loop goes on for as long as the stamps it meets are taken.

* `WithinRetryBound`: the bound, as the source documents it.
* `withinRetryBound_iff`: it is kept exactly where a free stamp lies within reach.
* `taken_addEvents_replicate`: events added at one stamp fill the stamps that follow it, without a
  limit on their number. `not_withinRetryBound_of_crowd` adds more than the bound allows.
-/

namespace Sevmgr

namespace EventQueue

variable {T C : Type} [Stdair T] {w : ℕ} {q : EventQueue T C w} {e : EventStruct T C}

/-- The call tries the insertion `n` more times. -/
def Retries (q : EventQueue T C w) (e : EventStruct T C) (n : ℕ) : Prop :=
  (addEventLoop 0).MakesRounds (tryInsert q.eventList e) n

/-- The call tries again at most a thousand times. So when it returns it has moved the event by at
most a thousand milliseconds, and when more attempts are needed its assertion fails and the event is
not stored. -/
structure WithinRetryBound (q : EventQueue T C w) (e : EventStruct T C) : Prop where
  retries : ∀ n, q.Retries e n → n ≤ 1000
  moved : ∀ b, (q.addEvent e).outcome = .returned b →
    (q.addEvent e).event.eventTimeStamp - e.eventTimeStamp ≤ 1000
  stopped : ∀ n, TakenInARow q.eventList.keySet e.eventTimeStamp n → 1000 < n →
    (q.addEvent e).outcome = .aborted ∧ (q.addEvent e).queue.eventList = q.eventList

/-- The call tries again once for each stamp taken in a row from the requested one. -/
lemma retries_iff {n : ℕ} :
    q.Retries e n ↔ TakenInARow q.eventList.keySet e.eventTimeStamp n := by
  refine ⟨fun h => ?_, makesRounds_addEventLoop⟩
  obtain ⟨m, hm, -⟩ := q.exists_takenInARow e
  rwa [WhileLoop.MakesRounds.unique _ h (makesRounds_addEventLoop hm)]

/-- **The documented bound on the retries is kept** exactly when one of the thousand and one stamps
from the requested one on is free. -/
theorem withinRetryBound_iff (q : EventQueue T C w) (e : EventStruct T C) :
    q.WithinRetryBound e ↔ ∃ i : ℕ, i ≤ 1000 ∧ e.eventTimeStamp + i ∉ q.eventList.keys := by
  obtain ⟨n, hn, hk⟩ := q.exists_takenInARow e
  refine ⟨fun h => ⟨n, h.retries n (retries_iff.mpr hn), hn.2⟩, ?_⟩
  rintro ⟨i, hi, hfree⟩
  have hlast : ∀ m, TakenInARow q.eventList.keySet e.eventTimeStamp m → m ≤ 1000 := by
    intro m hm
    by_contra hgt
    exact hfree (hm.1 i (by omega))
  refine ⟨fun m hm => hlast m (retries_iff.mp hm), fun _ _ => ?_, fun m hm hgt => ?_⟩
  · have := hlast n hn
    rw [addEvent_eq, EventStruct.eventTimeStamp_stampedAt, hk]
    omega
  · exact absurd (hlast m hm) (by omega)

/-! ### A crowded stamp -/

/-- Another event at the same stamp fills the next free one. -/
lemma taken_withEvent {m : ℕ} (hm : ∀ i < m, e.eventTimeStamp + (i : ℕ) ∈ q.eventList.keys) :
    ∀ i < m + 1,
      e.eventTimeStamp + (i : ℕ) ∈ (q.withEvent (q.addedStamp e) e).eventList.keys := by
  intro i hi
  rw [withEvent, SortedMap.mem_keys_insert (q.addedStamp_notMem e)]
  by_contra hnot
  rw [not_or] at hnot
  -- a free stamp is at most as far as the one that was given, which is not among those taken
  have hle := (q.isNearestFree_addedStamp e).2 ⟨Int.le_add_of_nonneg_right (by omega), hnot.2⟩
  obtain ⟨j, hj⟩ := Int.le.dest (q.le_addedStamp e)
  have hjm : ¬ j < m := fun hlt => q.addedStamp_notMem e (hj ▸ hm j hlt)
  omega

/-- Events added at one stamp fill as many stamps in a row. -/
lemma taken_addEvents_replicate {m : ℕ}
    (hm : ∀ i < m, e.eventTimeStamp + (i : ℕ) ∈ q.eventList.keys) (n : ℕ) :
    ∀ i < m + n, e.eventTimeStamp + (i : ℕ)
      ∈ (q.addEvents (List.replicate n e)).1.eventList.keys := by
  induction n generalizing q m with
  | zero => exact hm
  | succ n ih =>
      rw [List.replicate_succ, addEvents_cons]
      intro i hi
      exact ih (taken_withEvent hm) i (by omega)

/-- A thousand and one booking requests of the same millisecond, and another one: it is tried again
a thousand and one times, and it is stored. -/
theorem not_withinRetryBound_of_crowd :
    ¬ (sampleStart.addEvents (List.replicate 1001 (sampleEvent .bkgReq 0 1))).1.WithinRetryBound
      (sampleEvent .bkgReq 0 2) := by
  intro h
  obtain ⟨n, hn, -⟩ := exists_takenInARow
    (sampleStart.addEvents (List.replicate 1001 (sampleEvent .bkgReq 0 1))).1
    (sampleEvent .bkgReq 0 2)
  have hle := h.retries n (retries_iff.mpr hn)
  exact hn.2 (taken_addEvents_replicate (q := sampleStart) (e := sampleEvent .bkgReq 0 1)
    (m := 0) (fun i hi => absurd hi (Nat.not_lt_zero i)) 1001 n (by omega))

end EventQueue

end Sevmgr
