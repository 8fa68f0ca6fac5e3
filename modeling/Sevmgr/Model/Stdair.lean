import Mathlib.Tactic
import Mathlib.Data.Rat.Floor
import Sevmgr.Library.SortedMap

/-!
What SEvMgr uses of StdAir and of Boost.Date_Time.

StdAir is a library of its own and its sources are not part of SEvMgr, so its enumeration of event
types and the contents of its events stay parameters, and its structures carry the
fields that the event queue reads and writes.

* `Stdair`: the enumeration `EN_EventType`, with the two members named in SEvMgr, and the
  date-time from which time stamps are counted.
* `EventStruct`: an event, whose time stamp may be moved while its date-time stays.
* `ProgressStatus`, `ProgressStatusSet`: the counters of the progress of the simulation.
-/

namespace Sevmgr

/-! ### Date-times and durations -/

/-- `stdair::DateTime_T`, a `ptime` of Boost, in microseconds from a fixed origin. -/
abbrev DateTime := ℤ

/-- `stdair::Duration_T`, in microseconds. -/
abbrev Duration := ℤ

/-- `total_milliseconds()`, a division that truncates towards zero. -/
def totalMilliseconds (d : Duration) : ℤ := d.tdiv 1000

/-- `stdair::EventType::EN_EventType`, ordered as its values are in a `std::map`, and
`stdair::DEFAULT_EVENT_OLDEST_DATETIME`. -/
class Stdair (T : Type) extends LinearOrder T where
  bkgReq : T
  brkPt : T
  bkgReq_ne_brkPt : bkgReq ≠ brkPt
  getLabel : T → String
  defaultEventOldestDateTime : DateTime

export Stdair (bkgReq brkPt getLabel defaultEventOldestDateTime)

variable (T C : Type)

/-! ### Events -/

/-- `stdair::EventStruct`: the type, the date-time and the rest of the contents of the event, and
its time stamp. -/
structure EventStruct where
  eventType : T
  eventTime : DateTime
  content : C
  eventTimeStamp : ℤ
deriving DecidableEq, Repr

variable {T C}

namespace EventStruct

/-- `incrementEventTimeStamp()`: one millisecond on the stamp, nothing else. -/
def incrementEventTimeStamp (e : EventStruct T C) : EventStruct T C :=
  { e with eventTimeStamp := e.eventTimeStamp + 1 }

/-- The event moved to the stamp `k`. -/
def stampedAt (e : EventStruct T C) (k : ℤ) : EventStruct T C := { e with eventTimeStamp := k }

/-- Everything but the time stamp. -/
def contents (e : EventStruct T C) : T × DateTime × C := (e.eventType, e.eventTime, e.content)

@[simp] lemma eventTimeStamp_stampedAt (e : EventStruct T C) (k : ℤ) :
    (e.stampedAt k).eventTimeStamp = k := rfl

@[simp] lemma eventType_stampedAt (e : EventStruct T C) (k : ℤ) :
    (e.stampedAt k).eventType = e.eventType := rfl

@[simp] lemma eventTime_stampedAt (e : EventStruct T C) (k : ℤ) :
    (e.stampedAt k).eventTime = e.eventTime := rfl

@[simp] lemma contents_stampedAt (e : EventStruct T C) (k : ℤ) :
    (e.stampedAt k).contents = e.contents := rfl

lemma stampedAt_self (e : EventStruct T C) : e.stampedAt e.eventTimeStamp = e := rfl

end EventStruct

/-! ### Progress statuses -/

/-- `stdair::Count_T`, an unsigned integer of `w` bits. -/
abbrev Count (w : ℕ) := BitVec w

/-- `static_cast<Count_T>` of a floating-point number, which drops the fractional part; a number
below zero or beyond the range has no defined conversion. -/
def staticCast (w : ℕ) (x : ℚ) : Count w := BitVec.ofNat w ⌊x⌋.toNat

/-- `stdair::ProgressStatus`. The current number is only ever counted up from zero; the other two
are summed, truncated and subtracted, and wrap around. -/
@[ext] structure ProgressStatus (w : ℕ) where
  currentNb : ℕ
  expectedNb : Count w
  actualNb : Count w
deriving DecidableEq, Repr

namespace ProgressStatus

variable {w : ℕ}

/-- `ProgressStatus (DEFAULT_PROGRESS_STATUS, DEFAULT_PROGRESS_STATUS)`. -/
def zero : ProgressStatus w := ⟨0, 0, 0⟩

/-- `ProgressStatus (n)`. -/
def ofExpected (n : Count w) : ProgressStatus w := ⟨0, n, n⟩

/-- `operator++`. -/
def increment (s : ProgressStatus w) : ProgressStatus w := { s with currentNb := s.currentNb + 1 }

/-- `reset()`: the expected number is kept. -/
def reset (s : ProgressStatus w) : ProgressStatus w := ⟨0, s.expectedNb, 0⟩

@[simp] lemma currentNb_increment (s : ProgressStatus w) :
    s.increment.currentNb = s.currentNb + 1 := rfl

@[simp] lemma expectedNb_increment (s : ProgressStatus w) :
    s.increment.expectedNb = s.expectedNb := rfl

@[simp] lemma actualNb_increment (s : ProgressStatus w) : s.increment.actualNb = s.actualNb := rfl

@[simp] lemma currentNb_reset (s : ProgressStatus w) : s.reset.currentNb = 0 := rfl

@[simp] lemma expectedNb_reset (s : ProgressStatus w) : s.reset.expectedNb = s.expectedNb := rfl

@[simp] lemma actualNb_reset (s : ProgressStatus w) : s.reset.actualNb = 0 := rfl

end ProgressStatus

/-- `stdair::ProgressStatusSet`: the statuses that have been set on it. -/
structure ProgressStatusSet (T : Type) (w : ℕ) where
  eventType : T
  typeSpecificStatus : Option (ProgressStatus w)
  overallStatus : Option (ProgressStatus w)
deriving DecidableEq, Repr

/-- `ProgressStatusSet (type)`, on which no status has been set yet. -/
def ProgressStatusSet.ofType {T : Type} {w : ℕ} (t : T) : ProgressStatusSet T w := ⟨t, none, none⟩

end Sevmgr
