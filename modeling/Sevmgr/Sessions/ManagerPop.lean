import Sevmgr.Sessions.Pending

/-!
What `EventQueueManager::popEvent` reports.

The exceptions of `EventQueue::popEvent` have one class and two causes, and the handler takes every
one of them for an empty queue.

* `Caught`: the handler is entered.
* `PopReports`: it is entered for an empty queue only, and the statuses returned otherwise are those
  of the queue.
* `popReports_iff`: this is so exactly when no event is pending or the first one has a registered
  type, and hence throughout a session that registers every type before its events are added.
-/

namespace Sevmgr

open EventQueue

variable {T C : Type} [Stdair T] {w : ℕ} {q : EventQueue T C w}

/-- `managerPopEvent` catches an exception. -/
def Caught (q : EventQueue T C w) (io : EventStruct T C) : Prop :=
  ∃ x, (q.popEvent io).outcome = .raised x

/-- The handler is entered exactly for an empty queue, and then the default set is returned. In
every other case the set is that of the type of the event popped, with the statuses that the queue
holds after the pop. -/
structure PopReports (q : EventQueue T C w) (io : EventStruct T C) : Prop where
  caught_iff : Caught q io ↔ q.eventList = .empty
  caught : Caught q io → (q.managerPopEvent io).outcome = .returned (.ofType bkgReq)
  popped : ¬ Caught q io → ∃ k e s, q.eventList.first? = some (k, e) ∧
    (q.managerPopEvent io).event = e ∧ (q.managerPopEvent io).queue = q.played k e ∧
    (q.managerPopEvent io).outcome = .returned ⟨e.eventType, some s,
      some (q.managerPopEvent io).queue.progressStatus⟩ ∧
    (q.managerPopEvent io).queue.progressStatusMap.find? e.eventType = some s

/-- The handler hides which exception it caught. -/
lemma managerPopEvent_of_caught {io : EventStruct T C} (h : Caught q io) :
    (q.managerPopEvent io).outcome = .returned (.ofType bkgReq) := by
  obtain ⟨x, hx⟩ := h
  rw [managerPopEvent]
  cases hc : q.popEvent io with
  | mk outcome queue event popped =>
      rw [hc] at hx
      rw [show outcome = .raised x from hx]

lemma caught_of_empty (h : q.eventList = .empty) (io : EventStruct T C) : Caught q io :=
  ⟨_, by rw [popEvent_of_empty h]⟩

/-- A first event of a registered type is returned with the statuses stored for it. -/
lemma managerPopEvent_of_registered {k : ℤ} {e : EventStruct T C} {s : ProgressStatus w}
    (hfirst : q.eventList.first? = some (k, e))
    (hs : q.progressStatusMap.find? e.eventType = some s) (io : EventStruct T C) :
    q.managerPopEvent io = ⟨.returned ⟨e.eventType, some s.increment,
      some (q.played k e).progressStatus⟩, q.played k e, e, [e]⟩ := by
  rw [managerPopEvent, popEvent_of_registered hfirst hs]
  rfl

lemma find?_played {k : ℤ} {e : EventStruct T C} {s : ProgressStatus w}
    (hs : q.progressStatusMap.find? e.eventType = some s) :
    (q.played k e).progressStatusMap.find? e.eventType = some s.increment := by
  rw [played, SortedMap.find?_modify, if_pos rfl, hs, Option.map_some]

/-- The reports are right when the first event, if there is one, has a registered type. -/
lemma popReports_of_registered (h : ∀ k e, q.eventList.first? = some (k, e) →
    e.eventType ∈ q.progressStatusMap.keys) (io : EventStruct T C) : PopReports q io := by
  by_cases hempty : q.eventList = .empty
  · have hcaught := caught_of_empty hempty io
    exact ⟨iff_of_true hcaught hempty, managerPopEvent_of_caught, fun hnot => absurd hcaught hnot⟩
  · obtain ⟨k, e, hfirst⟩ := SortedMap.exists_first? hempty
    have ht := h k e hfirst
    have hnot : ¬ Caught q io := fun hx => (popEvent_raised_iff hfirst io).mp hx ht
    obtain ⟨s, hs⟩ := SortedMap.exists_find? ht
    refine ⟨iff_of_false hnot hempty, fun hcaught => absurd hcaught hnot, fun _ => ?_⟩
    rw [managerPopEvent_of_registered hfirst hs]
    exact ⟨k, e, s.increment, hfirst, rfl, rfl, rfl, find?_played hs⟩

/-- **`EventQueueManager::popEvent` reports an empty queue only when the queue is empty**, in a
state that a session reaches, exactly when no event is pending or the first one has a registered
type. In every state that a session reaches whose events are added after the status of their type,
it does. -/
theorem popReports_iff {G : EventQueue T C w → Op T C → Prop} {key : String}
    {ls : List (Exchange T C w)} (hs : Session G (.fresh key) ls q) (io : EventStruct T C) :
    (PopReports q io ↔ ∀ k e, q.eventList.first? = some (k, e) →
        e.eventType ∈ q.progressStatusMap.keys) ∧
      ((∀ q' op, G q' op → op.Registered q') → PopReports q io) := by
  refine ⟨⟨fun h k e hfirst => ?_, fun h => popReports_of_registered h io⟩, fun hG => ?_⟩
  · by_contra ht
    have hempty := h.caught_iff.mp ((popEvent_raised_iff hfirst io).mpr ht)
    rw [hempty] at hfirst
    exact absurd hfirst (by simp [SortedMap.first?])
  · have hq : PendingRegistered q := hs.happens.invariant
      (fun _ _ _ hq hx => hq.step hx.1 fun op hop => hG _ _ (hx.2 op hop))
      (pendingRegistered_prepared key [])
    exact popReports_of_registered (fun k e hfirst => hq _ (SortedMap.mem_of_first? hfirst)) io

/-- A booking request added after its status, and the empty queue after its pop. -/
theorem popReports_iff_sample :
    PopReports ((fresh "EQ01" : EventQueue SampleType ℕ 32).after [.addStatus .bkgReq 1,
      .addEvent (sampleEvent .bkgReq 0 1), .popEvent (sampleEvent .bkgReq 0 0)])
      (sampleEvent .bkgReq 0 0) :=
  (popReports_iff (G := Op.Registered) (session_exchanges (show
    (fresh "EQ01" : EventQueue SampleType ℕ 32).Admits Op.Registered [.addStatus .bkgReq 1,
      .addEvent (sampleEvent .bkgReq 0 1), .popEvent (sampleEvent .bkgReq 0 0)]
    by decide +kernel)) _).2 fun _ _ h => h

/-- A break point added without a status: the queue is reported empty with the break point in it. -/
theorem not_popReports_unregistered : ∃ ls q,
    Session (fun _ _ => True) (fresh "EQ01" : EventQueue SampleType ℕ 32) ls q ∧
      ¬ PopReports q (sampleEvent .bkgReq 0 0) := by
  have hops : (fresh "EQ01" : EventQueue SampleType ℕ 32).Admits (fun _ _ => True)
      [.addStatus .bkgReq 1, .addEvent (sampleEvent .brkPt 0 1)] := by
    decide +kernel
  refine ⟨_, _, session_exchanges hops, fun h => ?_⟩
  have hempty := h.caught_iff.mp ⟨.noProgressStatus ⟨0, 1, 1, 1⟩ .brkPt, by decide +kernel⟩
  exact absurd hempty (by decide +kernel)

end Sevmgr
