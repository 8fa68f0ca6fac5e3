import Sevmgr.Model.EventQueue

/-!
The commands of `sevmgr/command/EventQueueManager.cpp` that work on the events of the queue.

* `playLoop`: the popping loop that `run` and `select` share. Each of them keeps a view of the last
  event, its type or its date-time, and pops until the queue is done or the view is the one asked
  for.
* `run`, `select`: the two loops at their own view, with the initial value the source gives it.
* `managerPopEvent`: a pop whose exceptions are caught.
* `buildSampleQueue`: the sample queue.
-/

namespace Sevmgr

namespace EventQueue

variable {T C β : Type} [Stdair T] {w : ℕ} [DecidableEq β]

/-! ### The popping loop -/

/-- The variables of the loop: the queue, the event passed by reference, the view of it and the
exception that breaks the loop off. The last one records the events popped so far. -/
structure Playing (T C : Type) [Stdair T] (w : ℕ) (β : Type) where
  queue : EventQueue T C w
  event : EventStruct T C
  view : β
  exception : Option (EventQueueException T)
  popped : List (EventStruct T C)
deriving DecidableEq

/-- The body of the loop: `popEvent (iEventStruct)`, then the view of the event. -/
def Playing.round (viewOf : EventStruct T C → β) (v : Playing T C w β) : Playing T C w β :=
  match v.queue.popEvent v.event with
  | ⟨.raised x, q, e, es⟩ => ⟨q, e, v.view, some x, v.popped ++ es⟩
  | ⟨_, q, e, es⟩ => ⟨q, e, viewOf e, none, v.popped ++ es⟩

/-- `while (isQueueDone() == false && view != target)`. -/
def playLoop (viewOf : EventStruct T C → β) (target : β) : WhileLoop (Playing T C w β) where
  cond v := v.exception.isNone && !v.queue.isQueueDone && decide (v.view ≠ target)
  body := Playing.round viewOf
  rounds v := v.queue.eventList.size
  decreases v hv := by
    have hne : v.queue.eventList ≠ .empty := by
      simp only [Bool.and_eq_true, Bool.not_eq_true', isQueueDone, SortedMap.isEmpty_eq_false] at hv
      exact hv.1.2
    obtain ⟨k, e, hfirst⟩ := SortedMap.exists_first? hne
    have hsize := SortedMap.size_erase_first hfirst
    simp only [Playing.round, popEvent, hfirst, getStatus]
    cases v.queue.progressStatusMap.find? e.eventType with
    | none => simp only []; omega
    | some s => simp only [setStatus]; omega

/-- The loop entered with the view `initial`. -/
def play (viewOf : EventStruct T C → β) (initial target : β) (q : EventQueue T C w)
    (iEventStruct : EventStruct T C) : Playing T C w β :=
  (playLoop viewOf target).exec ⟨q, iEventStruct, initial, none, []⟩

/-! ### Commands -/

/-- `EventQueueManager::run (ioEventQueue, iEventStruct)`. -/
def run (q : EventQueue T C w) (iEventStruct : EventStruct T C) : Call T C w Unit :=
  let v := q.play EventStruct.eventType (bkgReq : T) brkPt iEventStruct
  ⟨match v.exception with | some x => .raised x | none => .returned (), v.queue, v.event, v.popped⟩

/-- `EventQueueManager::select (ioEventQueue, iEventStruct, iDateTime)`. -/
def select (q : EventQueue T C w) (iEventStruct : EventStruct T C) (iDateTime : DateTime) :
    Call T C w Bool :=
  if q.hasEventDateTime iDateTime = false then ⟨.returned false, q, iEventStruct, []⟩
  else
    let v := q.play EventStruct.eventTime (defaultEventOldestDateTime T) iDateTime iEventStruct
    ⟨match v.exception with
      | some x => .raised x
      | none => if v.view = iDateTime then .returned true else .aborted,
      v.queue, v.event, v.popped⟩

/-- `EventQueueManager::popEvent (ioEventQueue, iEventStruct)`: every exception of the queue is
taken for an empty queue. -/
def managerPopEvent (q : EventQueue T C w) (iEventStruct : EventStruct T C) :
    Call T C w (ProgressStatusSet T w) :=
  match q.popEvent iEventStruct with
  | ⟨.raised _, q', e, es⟩ => ⟨.returned (.ofType bkgReq), q', e, es⟩
  | c => c

/-- `EventQueueManager::buildSampleQueue (ioEventQueue)`, from the two booking requests that StdAir
provides and the two break points. -/
def buildSampleQueue (q : EventQueue T C w) (lEventStruct lEventStructForCRS lEventBreakPoint1
    lEventBreakPoint2 : EventStruct T C) : EventQueue T C w :=
  let q₁ := q.addStatus bkgReq 2
  let q₂ := (q₁.addEvent lEventStruct).queue
  let q₃ := (q₂.addEvent lEventStructForCRS).queue
  let q₄ := q₃.addStatus brkPt 2
  let q₅ := (q₄.addEvent lEventBreakPoint1).queue
  (q₅.addEvent lEventBreakPoint2).queue

end EventQueue

end Sevmgr
