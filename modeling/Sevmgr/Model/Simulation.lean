import Sevmgr.Model.Interactive
import Sevmgr.Model.Numbers

/-!
The programs that play a whole queue: the batch of `sevmgr/batches/sevmgr_demo.cpp` and the test of
`test/sevmgr/EventQueueManagementTestSuite.cpp`.

* `Simulation`, `simulationLoop`: the main loop of the two, with what it logs.
* `demo`: the batch.
* `Failure`, `require`, `sevmgrSimpleSimulationTest`: the test, which ends at the first requirement
  that is not met.
-/

namespace Sevmgr

variable {T C : Type} [Stdair T] {w : ℕ}

/-! ### The main loop -/

/-- What a round of the loop logs: its number, the event popped and the statuses returned. -/
structure Round (T C : Type) [Stdair T] (w : ℕ) where
  idx : Count w
  lEventStruct : EventStruct T C
  lPPS : Outcome T (ProgressStatusSet T w)
deriving DecidableEq

/-- The variables of the loop: the queue of the service and the number of the round. `rounds` and
`outputs` record what has been logged and written so far. -/
structure Simulation (T C : Type) [Stdair T] (w : ℕ) where
  queue : EventQueue T C w
  idx : Count w
  rounds : List (Round T C w)
  outputs : List Output
deriving DecidableEq

/-- The body of the loop, on a new event structure. -/
def Simulation.round (lEventStruct : EventStruct T C) (v : Simulation T C w) : Simulation T C w :=
  let call := v.queue.managerPopEvent lEventStruct
  ⟨call.queue, v.idx + 1, v.rounds ++ [⟨v.idx, call.event, call.outcome⟩],
    v.outputs ++ Terminal.caughtOutputs v.queue lEventStruct⟩

namespace EventQueue

/-- Whether the pop succeeds or its exception is caught, the first event is taken out. -/
lemma eventList_managerPopEvent {q : EventQueue T C w} {k : ℤ} {e : EventStruct T C}
    (h : q.eventList.first? = some (k, e)) (io : EventStruct T C) :
    (q.managerPopEvent io).queue.eventList = q.eventList.erase k := by
  simp only [managerPopEvent, popEvent, h, getStatus]
  cases q.progressStatusMap.find? e.eventType with
  | none => rfl
  | some s => rfl

/-- `while (sevmgrService.isQueueDone() == false)`. -/
def simulationLoop (lEventStruct : EventStruct T C) : WhileLoop (Simulation T C w) where
  cond v := !v.queue.isQueueDone
  body := Simulation.round lEventStruct
  rounds v := v.queue.eventList.size
  decreases v hv := by
    have hne : v.queue.eventList ≠ .empty := by simpa [isQueueDone] using hv
    obtain ⟨k, e, hfirst⟩ := SortedMap.exists_first? hne
    have hsize := SortedMap.size_erase_first hfirst
    show (v.queue.managerPopEvent lEventStruct).queue.eventList.size < v.queue.eventList.size
    rw [eventList_managerPopEvent hfirst]
    omega

/-- The loop from its first round. -/
def simulate (q : EventQueue T C w) (lEventStruct : EventStruct T C) : Simulation T C w :=
  (simulationLoop lEventStruct).exec ⟨q, 1, [], []⟩

end EventQueue

/-! ### The batch -/

/-- `main` of the batch. -/
def demo (w : ℕ) (lEventStruct lBookingRequest lBookingRequestForCRS lBreakPoint1 lBreakPoint2 :
    EventStruct T C) : Simulation T C w :=
  ((EventQueue.fresh "EQ01").buildSampleQueue lBookingRequest lBookingRequestForCRS lBreakPoint1
    lBreakPoint2).simulate lEventStruct

/-! ### The test -/

/-- How the test fails: a requirement is not met, or an exception or a failed assertion ends it. -/
inductive Failure (T : Type) where
  | required (message : String)
  | thrown (x : EventQueueException T)
  | aborted
deriving DecidableEq

/-- `BOOST_REQUIRE_MESSAGE (condition, message)`. -/
def require (condition : Bool) (message : String) : Except (Failure T) Unit :=
  if condition then .ok () else .error (.required message)

/-- A call of the test, which nothing catches. -/
def Call.uncaught {α : Type} (c : Call T C w α) :
    Except (Failure T) (EventQueue T C w × EventStruct T C) :=
  match c.outcome with
  | .returned _ => .ok (c.queue, c.event)
  | .raised x => .error (.thrown x)
  | .aborted => .error .aborted

/-- The start of a day. -/
def Date.midnight (date : Date) : PTime := ⟨date, 0, by decide⟩

/-- Midnight of 21 January 2010, of the first break point of the sample queue. -/
def lBP1DateTime : PTime := Date.midnight ⟨2010, 1, 21, by decide⟩

/-- Midnight of 14 May 2011, of the second one. -/
def lBP2DateTime : PTime := Date.midnight ⟨2011, 5, 14, by decide⟩

/-- The requirement that an event be of the date expected. -/
def requireDate (M : Terminal T C) (e : EventStruct T C) (lExpectedDate : Date)
    (message ending : String) : Except (Failure T) Unit :=
  require ((M.ptimeOf e.eventTime).date = lExpectedDate)
    (message ++ String.ofList (M.showDate (M.ptimeOf e.eventTime).date) ++ ". Should be: "
      ++ String.ofList (M.showDate lExpectedDate) ++ ending)

/-- The requirement that an event be a break point. -/
def requireBreakPoint (e : EventStruct T C) : Except (Failure T) Unit :=
  require (e.eventType = brkPt)
    "The last event poppped from the queue should be a break point."

/-- `sevmgr_simple_simulation_test`, on a service whose queue is `q`, with the events from which
the sample queue is built. It ends with the queue it leaves. -/
def sevmgrSimpleSimulationTest (M : Terminal T C) (q : EventQueue T C w)
    (lEventStruct lBookingRequest lBookingRequestForCRS lBreakPoint1 lBreakPoint2 :
      EventStruct T C) : Except (Failure T) (EventQueue T C w) := do
  let buildSampleQueue (q : EventQueue T C w) :=
    q.buildSampleQueue lBookingRequest lBookingRequestForCRS lBreakPoint1 lBreakPoint2
  require q.isQueueDone "The event queue should be empty at this step. No insertion done."
  let q := buildSampleQueue q
  let lNbOfEvents := q.getQueueSize
  require (!q.isQueueDone)
    "The event queue should not be empty at this step. Two insertions done."
  let v := q.simulate lEventStruct
  -- the last iteration is compensated for
  let idx := v.idx - 1
  require (idx = lNbOfEvents) ("Actual number of requests in the queue: " ++ Nat.repr idx.toNat
    ++ ". Expected value: " ++ Nat.repr lNbOfEvents.toNat)
  require v.queue.isQueueDone
    "The event queue should be empty at this step: the two events have been popped."
  let first := (buildSampleQueue v.queue).managerPopEvent lEventStruct
  requireDate M first.event lBP1DateTime.date
    "Date of the first event popped from the queue: " " which is earlier in time."
  let q := first.queue.reset
  require q.isQueueDone "The event queue has been reset: it should be empty at this step."
  let (q, lBreakPointStruct) ← ((buildSampleQueue q).run lEventStruct).uncaught
  requireBreakPoint lBreakPointStruct
  let (q, lBreakPointStruct) ← (q.run lBreakPointStruct).uncaught
  requireBreakPoint lBreakPointStruct
  requireDate M lBreakPointStruct lBP2DateTime.date
    "Date of the second break point popped from the queue: " "."
  return q

end Sevmgr
