import Sevmgr.Model.EventQueue

/-!
The getters of `EventQueue` for the numbers of its events, overall and of one type.

A type without status is treated differently by each family of getters: an assertion fails, for the
current and the actual number, or an exception is thrown with a message of its own, for the expected
number.
-/

namespace Sevmgr

namespace EventQueue

variable {T C : Type} [Stdair T] {w : ℕ} (q : EventQueue T C w)

/-- `getQueueSize()`, a size converted to a count. -/
def getQueueSize : Count w := BitVec.ofNat w q.eventList.size

/-! ### Overall -/

/-- `getCurrentNbOfEvents()`. -/
def getCurrentNbOfEvents : ℕ := q.progressStatus.currentNb

/-- `getExpectedTotalNbOfEvents()`. -/
def getExpectedTotalNbOfEvents : Count w := q.progressStatus.expectedNb

/-- `getActualTotalNbOfEvents()`. -/
def getActualTotalNbOfEvents : Count w := q.progressStatus.actualNb

/-! ### Of one type -/

/-- `getCurrentNbOfEvents (iType)`, with no number where the assertion fails. -/
def getCurrentNbOfEventsOfType (iType : T) : Option ℕ :=
  match q.progressStatusMap.find? iType with
  | none => none
  | some lProgressStatus => some lProgressStatus.currentNb

/-- `getExpectedTotalNbOfEvents (iType)`, with the message of the `EventQueueException` that it
throws. -/
def getExpectedTotalNbOfEventsOfType (iType : T) : Except String (Count w) :=
  match q.progressStatusMap.find? iType with
  | none => .error ("No ProgressStatus structure can be retrieved in the EventQueue '"
      ++ q.display.toString ++ "'. The EventQueue should be initialised, e.g., by calling a "
      ++ "buildSampleBom() method.")
  | some lProgressStatus => .ok lProgressStatus.expectedNb

/-- `getActualTotalNbOfEvents (iType)`, with no number where the assertion fails. -/
def getActualTotalNbOfEventsOfType (iType : T) : Option (Count w) :=
  match q.progressStatusMap.find? iType with
  | none => none
  | some lProgressStatus => some lProgressStatus.actualNb

end EventQueue

end Sevmgr
