import Sevmgr.Model.Sample

/-!
What `EventQueue::popEvent` does, in its three cases: the event list is empty, the type of the first
event has no progress status, or the event is played.

* `played`: the queue once the first event is out of the list and counted. It is what
  the call leaves both when it returns and when it raises for want of a status
  (`popEvent_of_registered`, `popEvent_of_unregistered`).
* `popEvent_atomic_iff`: so the call leaves the queue alone on failure exactly when no event is
  there or the type of the first one has a status.
-/

namespace Sevmgr

namespace EventQueue

variable {T C : Type} [Stdair T] {w : ℕ} {q : EventQueue T C w} {k : ℤ} {e : EventStruct T C}

/-- The queue after its entry `(k, e)` has been popped. -/
def played (q : EventQueue T C w) (k : ℤ) (e : EventStruct T C) : EventQueue T C w :=
  { q with
    eventList := q.eventList.erase k
    progressStatus := q.progressStatus.increment
    progressStatusMap := q.progressStatusMap.modify e.eventType ProgressStatus.increment }

@[simp] lemma isQueueDone_eq_true : q.isQueueDone = true ↔ q.eventList = .empty :=
  SortedMap.isEmpty_eq_true

lemma popEvent_of_empty (h : q.eventList = .empty) (io : EventStruct T C) :
    q.popEvent io = ⟨.raised (.queueEmpty q.describeKey), q, io, []⟩ := by
  rw [popEvent, h]
  rfl

/-- An event whose type has no status is lost: it is out of the list and counted when the exception
is raised. -/
lemma popEvent_of_unregistered (h : q.eventList.first? = some (k, e))
    (ht : e.eventType ∉ q.progressStatusMap.keys) (io : EventStruct T C) :
    q.popEvent io = ⟨.raised (.noProgressStatus (q.played k e).display e.eventType), q.played k e,
      e, [e]⟩ := by
  have hnone := SortedMap.find?_eq_none.mpr ht
  simp only [popEvent, h, getStatus, hnone, played, SortedMap.modify_of_notMem ht]

lemma popEvent_of_registered (h : q.eventList.first? = some (k, e)) {s : ProgressStatus w}
    (hs : q.progressStatusMap.find? e.eventType = some s) (io : EventStruct T C) :
    q.popEvent io = ⟨.returned ⟨e.eventType, some s.increment, some q.progressStatus.increment⟩,
      q.played k e, e, [e]⟩ := by
  simp only [popEvent, h, getStatus, hs, played, setStatus,
    SortedMap.replace_eq_modify (f := ProgressStatus.increment) hs]

/-- Whether it returns or raises, the call pops the first event. -/
lemma popEvent_of_first (h : q.eventList.first? = some (k, e)) (io : EventStruct T C) :
    (q.popEvent io).queue = q.played k e ∧ (q.popEvent io).event = e ∧
      (q.popEvent io).popped = [e] := by
  by_cases ht : e.eventType ∈ q.progressStatusMap.keys
  · obtain ⟨s, hs⟩ := SortedMap.exists_find? ht
    rw [popEvent_of_registered h hs]
    exact ⟨rfl, rfl, rfl⟩
  · rw [popEvent_of_unregistered h ht]
    exact ⟨rfl, rfl, rfl⟩

/-- No assertion fails in the call. -/
lemma popEvent_not_aborted (q : EventQueue T C w) (io : EventStruct T C) :
    (q.popEvent io).outcome ≠ .aborted := by
  cases hf : q.eventList.first? with
  | none =>
      rw [popEvent_of_empty (SortedMap.first?_eq_none.mp hf)]
      simp
  | some p =>
      by_cases ht : p.2.eventType ∈ q.progressStatusMap.keys
      · obtain ⟨s, hs⟩ := SortedMap.exists_find? ht
        rw [popEvent_of_registered hf hs]
        simp
      · rw [popEvent_of_unregistered hf ht]
        simp

/-- When there is an event, the call raises exactly if the type of the first one has no status. -/
lemma popEvent_raised_iff (h : q.eventList.first? = some (k, e)) (io : EventStruct T C) :
    (∃ x, (q.popEvent io).outcome = .raised x) ↔ e.eventType ∉ q.progressStatusMap.keys := by
  refine ⟨?_, ?_⟩
  · rintro ⟨x, hx⟩ ht
    obtain ⟨s, hs⟩ := SortedMap.exists_find? ht
    rw [popEvent_of_registered h hs] at hx
    exact absurd hx (by simp)
  · intro ht
    exact ⟨_, by rw [popEvent_of_unregistered h ht]⟩

/-! ### Atomicity on failure -/

/-- The queues agree in their event list, their overall status and their status map. -/
def SameState (q q' : EventQueue T C w) : Prop :=
  q.eventList = q'.eventList ∧ q.progressStatus = q'.progressStatus ∧
    q.progressStatusMap = q'.progressStatusMap

/-- A failing pop leaves the queue as it was. -/
def PopAtomic (q : EventQueue T C w) (io : EventStruct T C) : Prop :=
  ∀ x, (q.popEvent io).outcome = .raised x → SameState (q.popEvent io).queue q

/-- **`popEvent` is atomic on failure** exactly when the queue is empty or the type of its first
event has a progress status. -/
theorem popEvent_atomic_iff (q : EventQueue T C w) (io : EventStruct T C) :
    q.PopAtomic io ↔
      ∀ k e, q.eventList.first? = some (k, e) → q.hasProgressStatus e.eventType = true := by
  simp only [hasProgressStatus, SortedMap.find?_isSome]
  refine ⟨?_, ?_⟩
  · intro hat k e hfirst
    by_contra ht
    obtain ⟨x, hx⟩ := (popEvent_raised_iff hfirst io).mpr ht
    have hsame := (hat x hx).1
    rw [(popEvent_of_first hfirst io).1] at hsame
    have hsize := SortedMap.size_erase_first hfirst
    rw [show q.eventList.erase k = q.eventList from hsame] at hsize
    omega
  · intro hreg x hx
    cases hf : q.eventList.first? with
    | none =>
        rw [popEvent_of_empty (SortedMap.first?_eq_none.mp hf)]
        exact ⟨rfl, rfl, rfl⟩
    | some p => exact absurd (hreg p.1 p.2 hf) ((popEvent_raised_iff hf io).mp ⟨x, hx⟩)

/-- A queue with one break point and no status for break points: the break point is lost and the
overall current number moves, whatever event is passed. -/
theorem popEvent_not_atomic :
    ¬ (((EventQueue.fresh "EQ01" : EventQueue SampleType ℕ 32).addStatus .bkgReq 2).addEvent
        (sampleEvent .brkPt 0 1)).queue.PopAtomic (sampleEvent .bkgReq 0 0) := by
  intro h
  have := (h (.noProgressStatus ⟨0, 1, 2, 2⟩ .brkPt) (by decide +kernel)).1
  exact absurd this (by decide +kernel)

end EventQueue

end Sevmgr
