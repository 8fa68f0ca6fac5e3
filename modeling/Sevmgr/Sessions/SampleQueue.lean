import Sevmgr.Model.SampleTerminal
import Sevmgr.Sessions.Draining
import Sevmgr.Sessions.Runs

/-!
The sample queue, and the test that plays it.

* `IsSample`: the events from which the sample queue is built.
* `eventList_buildSampleQueue`, `pendingRegistered_buildSampleQueue`: what it is built of an empty
  queue.
* `first_buildSampleQueue`, `breakPoints_buildSampleQueue`: the event popped first, and the break
  points.
* `sevmgrSimpleSimulationTest_passes_iff`: when the test passes.
-/

namespace Sevmgr

open EventQueue

variable {T C : Type} [Stdair T] {w : ℕ} {q : EventQueue T C w} {e₁ e₂ b₁ b₂ : EventStruct T C}

/-- Two booking requests and the two break points, which come from StdAir on time and whose
date-times are those of a calendar. -/
structure IsSample (e₁ e₂ b₁ b₂ : EventStruct T C) : Prop where
  bkgReq₁ : e₁.eventType = bkgReq
  bkgReq₂ : e₂.eventType = bkgReq
  brkPt₁ : b₁.eventType = brkPt
  brkPt₂ : b₂.eventType = brkPt
  time₁ : b₁.eventTime = lBP1DateTime.dateTime
  time₂ : b₂.eventTime = lBP2DateTime.dateTime
  onTime : ∀ e ∈ [e₁, e₂, b₁, b₂], OnTime e
  dated : ∀ e ∈ [e₁, e₂, b₁, b₂], ∃ p : PTime, p.dateTime = e.eventTime

/-! ### The sample queue -/

/-- The four events are added in turn. -/
lemma eventList_buildSampleQueue (q : EventQueue T C w) (e₁ e₂ b₁ b₂ : EventStruct T C) :
    (q.buildSampleQueue e₁ e₂ b₁ b₂).eventList = (q.addEvents [e₁, e₂, b₁, b₂]).1.eventList := by
  have hadd : ∀ (q : EventQueue T C w) (e : EventStruct T C), (q.addEvent e).queue.eventList
      = ((addEventLoop 0).exec (tryInsert q.eventList e)).eventList := fun _ _ => rfl
  simp only [buildSampleQueue, addEvents, hadd, eventList_addStatus]

lemma progressStatusMap_addEvent (q : EventQueue T C w) (e : EventStruct T C) :
    (q.addEvent e).queue.progressStatusMap = q.progressStatusMap := rfl

/-- Both types of event have a status. -/
lemma keys_buildSampleQueue (q : EventQueue T C w) (e₁ e₂ b₁ b₂ : EventStruct T C) :
    bkgReq ∈ (q.buildSampleQueue e₁ e₂ b₁ b₂).progressStatusMap.keys ∧
      brkPt ∈ (q.buildSampleQueue e₁ e₂ b₁ b₂).progressStatusMap.keys := by
  simp only [buildSampleQueue, progressStatusMap_addEvent, mem_keys_addStatus, true_or, or_true,
    and_self]

lemma IsSample.registered (h : IsSample e₁ e₂ b₁ b₂) (q : EventQueue T C w) :
    ∀ e ∈ [e₁, e₂, b₁, b₂],
      e.eventType ∈ (q.buildSampleQueue e₁ e₂ b₁ b₂).progressStatusMap.keys := by
  obtain ⟨hbkg, hbrk⟩ := keys_buildSampleQueue q e₁ e₂ b₁ b₂
  simp only [List.forall_mem_cons, h.bkgReq₁, h.bkgReq₂, h.brkPt₁, h.brkPt₂]
  exact ⟨hbkg, hbkg, hbrk, hbrk, List.forall_mem_nil _⟩

/-- All events of the sample queue are of types with a status. -/
lemma pendingRegistered_buildSampleQueue (hq : q.eventList = .empty) (h : IsSample e₁ e₂ b₁ b₂) :
    PendingRegistered (q.buildSampleQueue e₁ e₂ b₁ b₂) := by
  intro p hp
  rw [eventList_buildSampleQueue] at hp
  obtain ⟨ps, hperm, -, hentries⟩ := exists_sorted_addEvents hq [e₁, e₂, b₁, b₂]
  rw [hentries, List.mem_map] at hp
  obtain ⟨x, hx, rfl⟩ := hp
  exact h.registered q x.1 (List.of_mem_zip (hperm.mem_iff.mp hx)).1

lemma size_buildSampleQueue (hq : q.eventList = .empty) :
    (q.buildSampleQueue e₁ e₂ b₁ b₂).eventList.size = 4 := by
  rw [eventList_buildSampleQueue, SortedMap.size, (q.perm_addEvents _).length_eq, hq]
  simp [length_addedStamps]

/-- The break points are far apart. -/
lemma IsSample.gap (h : IsSample e₁ e₂ b₁ b₂) :
    b₁.eventTimeStamp + 4 ≤ b₂.eventTimeStamp := by
  have h₁ := h.onTime b₁ (by simp)
  have h₂ := h.onTime b₂ (by simp)
  rw [OnTime, h.time₁] at h₁
  rw [OnTime, h.time₂] at h₂
  have hdays : lBP2DateTime.dateTime = lBP1DateTime.dateTime + 41299200000000 := by decide
  rw [hdays, h₁] at h₂
  have : 1000 * b₂.eventTimeStamp = 1000 * b₁.eventTimeStamp + 41299200000000 := by linarith
  omega

/-- Two runs find the two break points. -/
lemma breakPoints_buildSampleQueue (hq : q.eventList = .empty) (h : IsSample e₁ e₂ b₁ b₂) :
    ((q.buildSampleQueue e₁ e₂ b₁ b₂).eventList.values.filter isBreakPoint).map
      EventStruct.contents = [b₁, b₂].map EventStruct.contents := by
  have hne : (bkgReq : T) ≠ brkPt := Stdair.bkgReq_ne_brkPt
  rw [eventList_buildSampleQueue]
  refine breakPoints_addEvents hq (List.Perm.of_eq ?_) ?_
  · simp [isBreakPoint, h.bkgReq₁, h.bkgReq₂, h.brkPt₁, h.brkPt₂, hne]
  · simpa using h.gap

/-- The event popped first is one of the earliest of the four. -/
lemma first_buildSampleQueue (hq : q.eventList = .empty) (e₁ e₂ b₁ b₂ io : EventStruct T C) :
    ((q.buildSampleQueue e₁ e₂ b₁ b₂).managerPopEvent io).event ∈ [e₁, e₂, b₁, b₂] ∧
      ∀ e ∈ [e₁, e₂, b₁, b₂],
        ((q.buildSampleQueue e₁ e₂ b₁ b₂).managerPopEvent io).event.eventTimeStamp
          ≤ e.eventTimeStamp := by
  obtain ⟨e, he, hmin, hfirst⟩ := first_addEvents hq (List.cons_ne_nil e₁ [e₂, b₁, b₂])
  rw [← eventList_buildSampleQueue] at hfirst
  rw [(managerPopEvent_of_first hfirst io).1]
  exact ⟨he, hmin⟩

/-- Two runs return, and find the first and then the second break point. -/
lemma two_runs_buildSampleQueue (hq : q.eventList = .empty) (h : IsSample e₁ e₂ b₁ b₂)
    (io : EventStruct T C) :
    let call₁ := (q.buildSampleQueue e₁ e₂ b₁ b₂).run io
    let call₂ := call₁.queue.run call₁.event
    call₁.uncaught = .ok (call₁.queue, call₁.event) ∧ call₁.event.contents = b₁.contents ∧
      call₂.uncaught = .ok (call₂.queue, call₂.event) ∧ call₂.event.contents = b₂.contents := by
  intro call₁ call₂
  have hpending := pendingRegistered_buildSampleQueue hq h
  have hret := outcome_runs hpending io 2
  have hevents := contents_runs hpending (breakPoints_buildSampleQueue hq h) io (n := 2) le_rfl
  obtain ⟨hevent₁, hevent₂⟩ : call₁.event.contents = b₁.contents ∧
      call₂.event.contents = b₂.contents := by
    simpa [runs] using hevents
  have huncaught : ∀ call : Call T C w Unit, call.outcome = .returned () →
      call.uncaught = .ok (call.queue, call.event) := by
    intro call hcall
    rw [Call.uncaught, hcall]
  exact ⟨huncaught _ (hret call₁ (by simp [runs, call₁])), hevent₁,
    huncaught _ (hret call₂ (by simp [runs, call₁, call₂])), hevent₂⟩

/-! ### The test -/

omit [Stdair T] in
lemma require_bind (b : Bool) (message : String) {α : Type}
    (f : Unit → Except (Failure T) α) :
    (require b message >>= f) = if b then f () else .error (.required message) := by
  cases b <;> rfl

lemma ok_bind {x α β : Type} (a : α) (f : α → Except x β) : (Except.ok a >>= f) = f a := rfl

/-- The date of the event popped first is that of the first break point exactly if no booking
request comes before it. -/
lemma IsSample.date_iff (h : IsSample e₁ e₂ b₁ b₂) (M : Terminal T C) {e : EventStruct T C}
    (he : e ∈ [e₁, e₂, b₁, b₂])
    (hmin : ∀ e' ∈ [e₁, e₂, b₁, b₂], e.eventTimeStamp ≤ e'.eventTimeStamp) :
    (M.ptimeOf e.eventTime).date = lBP1DateTime.date ↔
      b₁.eventTime ≤ e₁.eventTime ∧ b₁.eventTime ≤ e₂.eventTime := by
  have htime : ∀ e' ∈ [e₁, e₂, b₁, b₂], e.eventTime ≤ e'.eventTime := by
    intro e' he'
    have := h.onTime e he
    have := h.onTime e' he'
    have := hmin e' he'
    simp only [OnTime] at *
    linarith
  constructor
  · intro hdate
    obtain ⟨p, hp⟩ := h.dated e he
    have hle : b₁.eventTime ≤ e.eventTime := by
      rw [← hp, M.ptimeOf_dateTime] at hdate
      rw [h.time₁, ← hp, PTime.dateTime, PTime.dateTime, hdate]
      exact add_le_add_right p.valid.1 _
    exact ⟨hle.trans (htime e₁ (by simp)), hle.trans (htime e₂ (by simp))⟩
  · rintro ⟨hle₁, hle₂⟩
    have hge : b₁.eventTime ≤ e.eventTime := by
      simp only [List.mem_cons, List.not_mem_nil, or_false] at he
      rcases he with rfl | rfl | rfl | rfl
      · exact hle₁
      · exact hle₂
      · exact le_rfl
      · have hdays : lBP1DateTime.dateTime ≤ lBP2DateTime.dateTime := by decide
        rw [h.time₁, h.time₂]
        exact hdays
    rw [le_antisymm (htime b₁ (by simp)) hge, h.time₁, M.ptimeOf_dateTime]

/-- The main loop on the sample queue makes as many rounds as there are events. -/
lemma idx_simulate (q : EventQueue T C w) (io : EventStruct T C) :
    (q.simulate io).idx - 1 = q.getQueueSize ∧ (q.simulate io).queue.eventList = .empty := by
  have hdrains := drains_simulate q io
  rw [hdrains.idx, getQueueSize]
  exact ⟨add_sub_cancel_left _ _, hdrains.done⟩

/-- **The test passes** on a service whose queue is empty exactly if no booking request that StdAir
provides comes before the first break point. It never ends on an exception or an assertion. -/
theorem sevmgrSimpleSimulationTest_passes_iff (M : Terminal T C) (hq : q.eventList = .empty)
    (h : IsSample e₁ e₂ b₁ b₂) (io : EventStruct T C) :
    ((∃ q', sevmgrSimpleSimulationTest M q io e₁ e₂ b₁ b₂ = .ok q') ↔
        b₁.eventTime ≤ e₁.eventTime ∧ b₁.eventTime ≤ e₂.eventTime) ∧
      ∀ x, sevmgrSimpleSimulationTest M q io e₁ e₂ b₁ b₂ = .error x →
        ∃ message, x = .required message := by
  have hne : ∀ q' : EventQueue T C w, q'.eventList = .empty →
      (q'.buildSampleQueue e₁ e₂ b₁ b₂).isQueueDone = false := by
    intro q' hq'
    rw [← Bool.not_eq_true, isQueueDone_eq_true, ← SortedMap.size_eq_zero,
      size_buildSampleQueue hq']
    decide
  obtain ⟨hidx, hempty⟩ := idx_simulate (q.buildSampleQueue e₁ e₂ b₁ b₂) io
  obtain ⟨hmem, hmin⟩ := first_buildSampleQueue hempty e₁ e₂ b₁ b₂ io
  have hdate := h.date_iff M hmem hmin
  -- the queue after the reset, from which the runs start
  generalize hstart : (((q.buildSampleQueue e₁ e₂ b₁ b₂).simulate io).queue.buildSampleQueue
    e₁ e₂ b₁ b₂).managerPopEvent io = first at hdate
  have hreset : first.queue.reset.eventList = .empty := rfl
  obtain ⟨hcall₁, hevent₁, hcall₂, hevent₂⟩ := two_runs_buildSampleQueue hreset h io
  generalize hrun₁ : (first.queue.reset.buildSampleQueue e₁ e₂ b₁ b₂).run io = call₁
    at hcall₁ hevent₁ hcall₂ hevent₂
  generalize hrun₂ : call₁.queue.run call₁.event = call₂ at hcall₂ hevent₂
  simp only [EventStruct.contents, Prod.mk.injEq, h.brkPt₁, h.brkPt₂, h.time₂] at hevent₁ hevent₂
  have hsecond : ∀ message ending, requireDate M call₂.event lBP2DateTime.date message ending
      = .ok () := by
    intro message ending
    rw [requireDate, hevent₂.2.1, M.ptimeOf_dateTime, require, if_pos (decide_eq_true rfl)]
  -- one requirement is left open
  have htest : sevmgrSimpleSimulationTest M q io e₁ e₂ b₁ b₂
      = requireDate M first.event lBP1DateTime.date
          "Date of the first event popped from the queue: " " which is earlier in time."
        >>= fun _ => .ok call₂.queue := by
    simp only [sevmgrSimpleSimulationTest, require_bind, requireBreakPoint,
      isQueueDone_eq_true.mpr hq, hne q hq, hidx, isQueueDone_eq_true.mpr hempty, hstart,
      isQueueDone_eq_true.mpr hreset, hrun₁, hcall₁, ok_bind, hrun₂, hcall₂, hevent₁, hevent₂,
      hsecond, Bool.not_false, decide_true, if_true]
    rfl
  rw [htest, requireDate, require_bind]
  by_cases hle : b₁.eventTime ≤ e₁.eventTime ∧ b₁.eventTime ≤ e₂.eventTime
  · rw [if_pos (decide_eq_true (hdate.mpr hle))]
    exact ⟨iff_of_true ⟨_, rfl⟩ hle, fun x hx => by cases hx⟩
  · rw [if_neg (by simpa [hdate] using hle)]
    refine ⟨iff_of_false (by simp) hle, fun x hx => ⟨_, (Except.error.inj hx).symm⟩⟩

/-- The events of the calendar are such, and the first break point comes first. -/
lemma isSample_calendar : IsSample Calendar.request Calendar.requestForCRS Calendar.breakPoint1
    Calendar.breakPoint2 where
  bkgReq₁ := rfl
  bkgReq₂ := rfl
  brkPt₁ := rfl
  brkPt₂ := rfl
  time₁ := rfl
  time₂ := rfl
  onTime := by decide +kernel
  dated := by
    simp only [List.forall_mem_cons]
    exact ⟨⟨_, rfl⟩, ⟨_, rfl⟩, ⟨_, rfl⟩, ⟨_, rfl⟩, List.forall_mem_nil _⟩

theorem sevmgrSimpleSimulationTest_passes_iff_sample :
    ∃ q', sevmgrSimpleSimulationTest sampleTerminal (EventQueue.fresh "EQ01" : EventQueue _ _ 32)
      Calendar.request Calendar.request Calendar.requestForCRS Calendar.breakPoint1
        Calendar.breakPoint2 = .ok q' :=
  (sevmgrSimpleSimulationTest_passes_iff sampleTerminal rfl isSample_calendar _).1.mpr
    (by decide +kernel)

end Sevmgr
