import Sevmgr.Library.WhileLoop
import Sevmgr.Model.Stdair

/-!
The class `EventQueue` of `sevmgr/bom/EventQueue.cpp`: its data and its methods.

A method that works on an event passed by reference, and may raise, is a function to a `Call`: how
it ended, and the queue and the event it leaves behind, whichever way it ended.

* `EventQueue`: the event list, a `std::map` from time stamps to events, and the progress statuses,
  overall and by event type.
* `addStatus`, `updateStatus`, `updateProgressStatus`, `setStatus`, `getStatus`, `reset`: the
  statuses.
* `popEvent`, `addEvent`, `hasEventDateTime`, `isQueueDone`: the events. The retry loop of
  `addEvent` is `addEventLoop`.
-/

namespace Sevmgr

/-! ### Data -/

/-- The attributes of the queue that its methods use. -/
structure EventQueue (T C : Type) [Stdair T] (w : ℕ) where
  key : String
  eventList : SortedMap ℤ (EventStruct T C)
  progressStatus : ProgressStatus w
  progressStatusMap : SortedMap T (ProgressStatus w)
deriving DecidableEq

/-- The numbers that `EventQueue::toString` prints. -/
structure QueueDisplay where
  size : ℕ
  currentNb : ℕ
  expectedNb : ℕ
  actualNb : ℕ
deriving DecidableEq, Repr

def QueueDisplay.toString (d : QueueDisplay) : String :=
  "(" ++ Nat.repr d.size ++ ") " ++ Nat.repr d.currentNb ++ "/\x7b" ++ Nat.repr d.expectedNb ++ ","
    ++ Nat.repr d.actualNb ++ "\x7d"

/-- `SEVMGR::EventQueueException`, with what its message quotes. -/
inductive EventQueueException (T : Type) where
  | queueEmpty (key : String)
  | noProgressStatus (display : QueueDisplay) (iType : T)
deriving DecidableEq, Repr

/-- The message of the exception. -/
def EventQueueException.what {T : Type} [Stdair T] : EventQueueException T → String
  | .queueEmpty key => "The event queue '" ++ key ++ "' is empty. No event can be popped."
  | .noProgressStatus display iType =>
      "No ProgressStatus structure can be retrieved in the EventQueue '" ++ display.toString
        ++ "' for the following event type: " ++ getLabel iType ++ "."

/-- How a call ends: with a value, with an exception, or on a failed assertion. -/
inductive Outcome (T α : Type) where
  | returned (a : α)
  | raised (x : EventQueueException T)
  | aborted
deriving DecidableEq, Repr

/-- The value, if there is one, passed through `f`. -/
def Outcome.map {T α β : Type} (f : α → β) : Outcome T α → Outcome T β
  | .returned a => .returned (f a)
  | .raised x => .raised x
  | .aborted => .aborted

lemma Outcome.map_eq_aborted {T α β : Type} {f : α → β} {o : Outcome T α} :
    o.map f = .aborted ↔ o = .aborted := by
  cases o <;> simp [map]

/-- Whether an assertion failed, which ends the process. -/
def Outcome.isAborted {T α : Type} : Outcome T α → Bool
  | .aborted => true
  | _ => false

/-- A call on a queue and an event passed by reference: its outcome and what it leaves in them.
`popped` records the events it took out of the queue, in order; no code reads it. -/
structure Call (T C : Type) [Stdair T] (w : ℕ) (α : Type) where
  outcome : Outcome T α
  queue : EventQueue T C w
  event : EventStruct T C
  popped : List (EventStruct T C)
deriving DecidableEq

namespace EventQueue

variable {T C : Type} [Stdair T] {w : ℕ}

/-- `EventQueue (key)`. -/
def fresh (key : String) : EventQueue T C w := ⟨key, .empty, .zero, .empty⟩

/-- `toString()`, by the numbers it prints. -/
def display (q : EventQueue T C w) : QueueDisplay :=
  ⟨q.eventList.size, q.progressStatus.currentNb, q.progressStatus.expectedNb.toNat,
    q.progressStatus.actualNb.toNat⟩

/-- `describeKey()`. -/
def describeKey (q : EventQueue T C w) : String := q.key

/-- `isQueueDone()`. -/
def isQueueDone (q : EventQueue T C w) : Bool := q.eventList.isEmpty

/-! ### Progress statuses -/

/-- `reset()`. -/
def reset (q : EventQueue T C w) : EventQueue T C w :=
  { q with
    progressStatus := q.progressStatus.reset
    eventList := .empty
    progressStatusMap := q.progressStatusMap.mapValues ProgressStatus.reset }

/-- `hasProgressStatus (iType)`. -/
def hasProgressStatus (q : EventQueue T C w) (iType : T) : Bool :=
  (q.progressStatusMap.find? iType).isSome

/-- `updateStatus (iType, iProgressStatus)`. The insertion cannot fail, the type having just been
found absent. -/
def updateProgressStatus (q : EventQueue T C w) (iType : T) (iProgressStatus : ProgressStatus w) :
    EventQueue T C w :=
  match q.progressStatusMap.find? iType with
  | none =>
      { q with progressStatusMap := (q.progressStatusMap.insert iType iProgressStatus).1 }
  | some lProgressStatus =>
      -- the current number is set where the other two are added
      { q with progressStatusMap := q.progressStatusMap.replace iType
                { currentNb := iProgressStatus.currentNb
                  expectedNb := lProgressStatus.expectedNb + iProgressStatus.expectedNb
                  actualNb := lProgressStatus.actualNb + iProgressStatus.actualNb } }

/-- `addStatus (iType, iExpectedTotalNbOfEvents)`: the share of the type is truncated before it is
added, the totals after. -/
def addStatus (q : EventQueue T C w) (iType : T) (iExpectedTotalNbOfEvents : ℚ) :
    EventQueue T C w :=
  let lExpectedTotalNbOfEventsInt := staticCast w ⌊iExpectedTotalNbOfEvents⌋
  let lProgressStatus := ProgressStatus.ofExpected lExpectedTotalNbOfEventsInt
  let q₁ := q.updateProgressStatus iType lProgressStatus
  { q₁ with
    progressStatus :=
      { q₁.progressStatus with
        expectedNb := staticCast w (q₁.progressStatus.expectedNb.toNat + iExpectedTotalNbOfEvents)
        actualNb := staticCast w (q₁.progressStatus.actualNb.toNat + iExpectedTotalNbOfEvents) } }

/-- `updateStatus (iType, iActualNbOfEvents)`: nothing for a type without status, and a delta taken
between unsigned integers otherwise. -/
def updateStatus (q : EventQueue T C w) (iType : T) (iActualNbOfEvents : ℚ) : EventQueue T C w :=
  let lActualNbOfEventsInt := staticCast w ⌊iActualNbOfEvents⌋
  match q.progressStatusMap.find? iType with
  | none => q
  | some lProgressStatus =>
      let lActualDeltaNb := lActualNbOfEventsInt - lProgressStatus.actualNb
      { q with
        progressStatus :=
          { q.progressStatus with actualNb := q.progressStatus.actualNb + lActualDeltaNb }
        progressStatusMap := q.progressStatusMap.replace iType
          { lProgressStatus with actualNb := lActualNbOfEventsInt } }

/-- `setStatus (iType, iProgressStatus)`: nothing for a type without status. -/
def setStatus (q : EventQueue T C w) (iType : T) (iProgressStatus : ProgressStatus w) :
    EventQueue T C w :=
  { q with progressStatusMap := q.progressStatusMap.replace iType iProgressStatus }

/-- `getStatus (iType)`. -/
def getStatus (q : EventQueue T C w) (iType : T) :
    Except (EventQueueException T) (ProgressStatus w) :=
  match q.progressStatusMap.find? iType with
  | none => .error (.noProgressStatus q.display iType)
  | some oProgressStatus => .ok oProgressStatus

/-! ### Popping an event -/

/-- `popEvent (ioEventStruct)`. The status of the type is looked up last, when the event is already
out of the list and counted. -/
def popEvent (q : EventQueue T C w) (ioEventStruct : EventStruct T C) :
    Call T C w (ProgressStatusSet T w) :=
  match q.eventList.first? with
  | none => ⟨.raised (.queueEmpty q.describeKey), q, ioEventStruct, []⟩
  | some (lStamp, lEvent) =>
      let q₁ := { q with
        progressStatus := q.progressStatus.increment
        eventList := q.eventList.erase lStamp }
      match q₁.getStatus lEvent.eventType with
      | .error x => ⟨.raised x, q₁, lEvent, [lEvent]⟩
      | .ok lStatus =>
          let q₂ := q₁.setStatus lEvent.eventType lStatus.increment
          ⟨.returned ⟨lEvent.eventType, some lStatus.increment, some q₂.progressStatus⟩, q₂, lEvent,
            [lEvent]⟩

/-! ### Adding an event -/

/-- The variables of the insertion: the flag `insertionSucceeded`, the event list and the event. -/
structure Insertion (T C : Type) where
  insertionSucceeded : Bool
  eventList : SortedMap ℤ (EventStruct T C)
  ioEventStruct : EventStruct T C
deriving DecidableEq

/-- `_eventList.insert (EventListElement_T (ioEventStruct.getEventTimeStamp(), ioEventStruct))`. -/
def tryInsert (eventList : SortedMap ℤ (EventStruct T C)) (ioEventStruct : EventStruct T C) :
    Insertion T C :=
  ⟨(eventList.insert ioEventStruct.eventTimeStamp ioEventStruct).2,
    (eventList.insert ioEventStruct.eventTimeStamp ioEventStruct).1, ioEventStruct⟩

/-- The retry loop of `addEvent`, whose counter `idx` the source declares constant. -/
def addEventLoop (idx : ℕ) : WhileLoop (Insertion T C) where
  cond v := !v.insertionSucceeded && idx != 1000
  body v := tryInsert v.eventList v.ioEventStruct.incrementEventTimeStamp
  rounds v :=
    if v.insertionSucceeded then 0 else v.eventList.countAfter v.ioEventStruct.eventTimeStamp + 1
  decreases v hv := by
    have hv' : v.insertionSucceeded = false := by
      simp only [Bool.and_eq_true, Bool.not_eq_true'] at hv
      exact hv.1
    by_cases h : v.ioEventStruct.incrementEventTimeStamp.eventTimeStamp ∈ v.eventList.keys
    · -- the next stamp is taken: it is one of those the loop had ahead
      have hlt := SortedMap.countAfter_lt h (Int.lt_succ v.ioEventStruct.eventTimeStamp)
      simpa only [tryInsert, SortedMap.insert_of_mem h, hv', Bool.false_eq_true, if_false,
        Nat.add_lt_add_iff_right] using hlt
    · have hok := (SortedMap.insert_snd (v := v.ioEventStruct.incrementEventTimeStamp)).mpr h
      simp only [tryInsert, hok, hv', if_true, Bool.false_eq_true, if_false, Nat.succ_pos]

/-- `addEvent (ioEventStruct)`. -/
def addEvent (q : EventQueue T C w) (ioEventStruct : EventStruct T C) : Call T C w Bool :=
  let idx := 0
  let v := (addEventLoop idx).exec (tryInsert q.eventList ioEventStruct)
  ⟨if idx = 1000 then .aborted else .returned v.insertionSucceeded,
    { q with eventList := v.eventList }, v.ioEventStruct, []⟩

/-! ### Looking an event up -/

/-- The number of milliseconds from `DEFAULT_EVENT_OLDEST_DATETIME`. -/
def dateTimeStamp (T : Type) [Stdair T] (iDateTime : DateTime) : ℤ :=
  totalMilliseconds (iDateTime - defaultEventOldestDateTime T)

/-- `hasEventDateTime (iDateTime)`. -/
def hasEventDateTime (q : EventQueue T C w) (iDateTime : DateTime) : Bool :=
  (q.eventList.find? (dateTimeStamp T iDateTime)).isSome

end EventQueue

end Sevmgr
