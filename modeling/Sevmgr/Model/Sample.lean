import Sevmgr.Model.Session

/-!
A concrete setting in which the calls can be evaluated: the two event types that SEvMgr names, the
origin of date-times at 1 January 2010, and the events of the sample queue.

* `SampleType`: booking requests and break points.
* `sampleEvent`: an event as StdAir builds it, its stamp counting the milliseconds up to its
  date-time.
* `sampleStart`, `sampleOps`: a queue and calls on it.
-/

namespace Sevmgr

/-- The members of `EN_EventType` named in SEvMgr. -/
inductive SampleType where
  | bkgReq
  | brkPt
deriving DecidableEq, Repr

namespace SampleType

/-- The value of the enumerator. -/
def toNat : SampleType → ℕ
  | bkgReq => 0
  | brkPt => 1

lemma toNat_injective : Function.Injective toNat := by
  intro t t' h
  cases t <;> cases t' <;> first | rfl | exact absurd h (by decide)

instance : LinearOrder SampleType := LinearOrder.lift' toNat toNat_injective

instance : Stdair SampleType where
  bkgReq := bkgReq
  brkPt := brkPt
  bkgReq_ne_brkPt := by decide
  getLabel := fun | bkgReq => "BookingRequest" | brkPt => "BreakPoint"
  defaultEventOldestDateTime := 0

end SampleType

/-- An event of the given type whose date-time lies `ms` milliseconds after the origin, labelled
`n`. -/
def sampleEvent (t : SampleType) (ms : ℤ) (n : ℕ) : EventStruct SampleType ℕ :=
  ⟨t, 1000 * ms, n, ms⟩

/-- The number of milliseconds in a day. -/
def day : ℤ := 86400000

/-- The sample queue: booking requests of 15 May 2011 and 22 January 2010, break points of
21 January 2010 and 14 May 2011. -/
def sampleQueue (q : EventQueue SampleType ℕ 32) : EventQueue SampleType ℕ 32 :=
  q.buildSampleQueue (sampleEvent .bkgReq (499 * day) 1) (sampleEvent .bkgReq (21 * day) 2)
    (sampleEvent .brkPt (20 * day) 3) (sampleEvent .brkPt (498 * day) 4)

/-- A queue on which both event types have a status. -/
def sampleStart : EventQueue SampleType ℕ 32 := .prepared "EQ01" [(.bkgReq, 3), (.brkPt, 1)]

/-- Events of the same and of adjacent milliseconds, played by single pops, up to a break point and
up to a date-time. -/
def sampleOps : List (Op SampleType ℕ) :=
  [.addEvent (sampleEvent .bkgReq 0 1), .addEvent (sampleEvent .bkgReq 0 2),
    .popEvent (sampleEvent .bkgReq 0 0), .addEvent (sampleEvent .brkPt 1 3),
    .addEvent (sampleEvent .bkgReq 5 4), .run (sampleEvent .bkgReq 0 0),
    .select (sampleEvent .bkgReq 0 0) 5000]

end Sevmgr
