import Sevmgr.Queue.Delays
import Sevmgr.Queue.Retries

/-!
How often `EventQueue::addEvent` tries again in all, for a list of events.

* `RetriesAll`: the attempts beyond the first ones, added up over the events.
* `retriesAll_iff`: they are as many as the milliseconds by which the events are moved.
* `retries_total`: their number does not depend on the order of the events, it is at most quadratic,
  and a crowd at one stamp makes so many.
-/

namespace Sevmgr

namespace EventQueue

variable {T C : Type} [Stdair T] {w : ℕ} {q : EventQueue T C w} {e : EventStruct T C}
  {es es' : List (EventStruct T C)}

/-- Adding the events one after the other takes `n` more attempts than there are events. -/
inductive RetriesAll : EventQueue T C w → List (EventStruct T C) → ℕ → Prop where
  | nil (q : EventQueue T C w) : RetriesAll q [] 0
  | cons {q : EventQueue T C w} {e : EventStruct T C} {es : List (EventStruct T C)} {m n : ℕ} :
      q.Retries e m → RetriesAll (q.addEvent e).queue es n → RetriesAll q (e :: es) (m + n)

lemma addedStamp_of_retries {m : ℕ} (h : q.Retries e m) :
    q.addedStamp e = e.eventTimeStamp + m :=
  (q.isNearestFree_addedStamp e).unique (takenInARow_iff.mp (retries_iff.mp h))

/-- Each attempt moves its event by a millisecond. -/
lemma RetriesAll.totalDelay_eq {n : ℕ} (h : q.RetriesAll es n) :
    totalDelay es (q.addedStamps es) = n := by
  induction h with
  | nil => rfl
  | @cons q e es m n hm _ ih =>
      have hstamp := addedStamp_of_retries hm
      rw [totalDelay] at ih
      rw [addedStamps, totalDelay, List.zipWith_cons_cons, List.sum_cons, ih, hstamp]
      push_cast
      ring

lemma exists_retriesAll (q : EventQueue T C w) (es : List (EventStruct T C)) :
    ∃ n, q.RetriesAll es n := by
  induction es generalizing q with
  | nil => exact ⟨0, .nil q⟩
  | cons e es ih =>
      obtain ⟨m, hm, -⟩ := q.exists_takenInARow e
      obtain ⟨n, hn⟩ := ih (q.addEvent e).queue
      exact ⟨m + n, .cons (retries_iff.mpr hm) hn⟩

/-- The number of the attempts, by what they do. -/
lemma retriesAll_iff {n : ℕ} :
    q.RetriesAll es n ↔ totalDelay es (q.addedStamps es) = n := by
  refine ⟨RetriesAll.totalDelay_eq, fun h => ?_⟩
  obtain ⟨m, hm⟩ := q.exists_retriesAll es
  obtain rfl : m = n := by exact_mod_cast hm.totalDelay_eq.symm.trans h
  exact hm

/-- The events are moved by the same in all, in whatever order they are added. -/
lemma totalDelay_perm (hp : es.Perm es') :
    totalDelay es (q.addedStamps es) = totalDelay es' (q.addedStamps es') := by
  have hstamps := hp.map EventStruct.eventTimeStamp
  have hslots := (q.servesAs_addedStamps es).perm q.eventList.finite_keySet hstamps
    (q.servesAs_addedStamps es')
  rw [EventQueue.totalDelay_eq (q.length_addedStamps es).symm,
    EventQueue.totalDelay_eq (q.length_addedStamps es').symm, hslots.sum_eq, hstamps.sum_eq]

lemma size_addEvent (q : EventQueue T C w) (e : EventStruct T C) :
    (q.addEvent e).queue.eventList.size = q.eventList.size + 1 := by
  rw [addEvent_eq]
  exact (SortedMap.insert_perm (q.addedStamp_notMem e) _).length_eq

/-- An event is tried again at most once for each pending one. -/
lemma RetriesAll.two_mul_le {n : ℕ} (h : q.RetriesAll es n) :
    2 * n + es.length ≤ es.length * (2 * q.eventList.size + es.length) := by
  induction h with
  | nil => simp
  | @cons q e es m n hm _ ih =>
      have hle := takenInARow_le (retries_iff.mp hm)
      rw [size_addEvent] at ih
      rw [List.length_cons]
      nlinarith

/-- Events at one stamp, where the pending ones fill the stamps from it on, are tried again once for
each of those that are pending when they are added. -/
lemma RetriesAll.two_mul_eq {n : ℕ} (h : q.RetriesAll es n) {t : ℤ}
    (hes : ∀ e ∈ es, e.eventTimeStamp = t)
    (hq : ∀ i < q.eventList.size, t + (i : ℕ) ∈ q.eventList.keys) :
    2 * n + es.length = es.length * (2 * q.eventList.size + es.length) := by
  induction h with
  | nil => simp
  | @cons q e es m n hm _ ih =>
      obtain ⟨rfl, hes⟩ := List.forall_mem_cons.mp hes
      have htaken := retries_iff.mp hm
      have hsize : m = q.eventList.size := by
        refine le_antisymm (takenInARow_le htaken) ?_
        by_contra hlt
        exact htaken.2 (hq m (by omega))
      have hnext := ih hes (by
        rw [size_addEvent, addEvent_eq]
        exact taken_withEvent hq)
      rw [size_addEvent] at hnext
      rw [List.length_cons, hsize]
      nlinarith

/-- **How often the events of a list are tried again in all.** The attempts come to an end, and
their number is the same in whatever order the events are added. It is at most the number of pairs
of an added event and one that is pending when it is added; events at one stamp that is followed by
the pending ones without a gap make so many. -/
theorem retries_total (q : EventQueue T C w) (hp : es.Perm es') :
    ∃ n, (∀ m, q.RetriesAll es m ↔ m = n) ∧ q.RetriesAll es' n ∧
      2 * n + es.length ≤ es.length * (2 * q.eventList.size + es.length) ∧
      ∀ t, (∀ e ∈ es, e.eventTimeStamp = t) →
        (∀ i < q.eventList.size, t + (i : ℕ) ∈ q.eventList.keys) →
          2 * n + es.length = es.length * (2 * q.eventList.size + es.length) := by
  obtain ⟨n, hn⟩ := q.exists_retriesAll es
  refine ⟨n, fun m => ⟨fun hm => ?_, fun hm => hm ▸ hn⟩, ?_, hn.two_mul_le, fun t => hn.two_mul_eq⟩
  · exact_mod_cast hm.totalDelay_eq.symm.trans hn.totalDelay_eq
  · rw [retriesAll_iff, ← totalDelay_perm hp, hn.totalDelay_eq]

/-- Three events of one millisecond, added in two orders. -/
theorem retries_total_sample :
    let es := [sampleEvent .bkgReq 5 1, sampleEvent .brkPt 5 2, sampleEvent .bkgReq 5 3]
    ∃ n, (∀ m, sampleStart.RetriesAll es m ↔ m = n) ∧ sampleStart.RetriesAll es.reverse n ∧
      2 * n + es.length ≤ es.length * (2 * sampleStart.eventList.size + es.length) ∧
      ∀ t, (∀ e ∈ es, e.eventTimeStamp = t) →
        (∀ i < sampleStart.eventList.size, t + (i : ℕ) ∈ sampleStart.eventList.keys) →
          2 * n + es.length = es.length * (2 * sampleStart.eventList.size + es.length) :=
  retries_total sampleStart (List.reverse_perm _).symm

end EventQueue

end Sevmgr
