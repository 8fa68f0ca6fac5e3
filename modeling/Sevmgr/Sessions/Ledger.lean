import Sevmgr.Library.Register
import Sevmgr.Model.Numbers
import Sevmgr.Sessions.CurrentNumbers
import Sevmgr.Sessions.Totals

/-!
The numbers of a queue read off its history.

* `currentChange`, `expectedChange`, `actualChange`: what a happening does to each number of a type,
  which is to set it or to add to it.
* `statusOf`: the status that they make of nothing, from the moment the type is registered.
* `Session.statusOf_eq`: along a session it is the status that the queue holds.
* `Session.ledger`: so every getter gives a number that the history alone determines.
-/

namespace Sevmgr

open EventQueue Change

variable {T C : Type} [Stdair T] {w : ℕ} {q q' : EventQueue T C w}

/-! ### What a happening does to the numbers of a type -/

/-- The happening gives a status to the type `t`, if it has none. -/
def Happening.registers (t : T) : Happening T C → Bool
  | .statusAdded iType _ => iType = t
  | _ => false

/-- `addStatus` sets the current number to zero, as a reset does. -/
def currentChange (t : T) : Happening T C → Option (Change ℕ)
  | .statusAdded iType _ => if iType = t then some (set 0) else none
  | .popped e => if e.eventType = t then some (add 1) else none
  | .cleared => some (set 0)
  | _ => none

/-- What `addStatus` adds to the expected number. -/
def addedShare (t : T) : Happening T C → Option (Count w)
  | .statusAdded iType n => if iType = t then some (staticCast w ⌊n⌋) else none
  | _ => none

/-- What it adds to the overall expected number. -/
def overallShare : Happening T C → Option (Count w)
  | .statusAdded _ n => some (staticCast w ⌊n⌋)
  | _ => none

/-- Nothing else changes the expected number of a type. -/
def expectedChange (t : T) (x : Happening T C) : Option (Change (Count w)) :=
  (addedShare t x).map add

/-- The actual number is added to by `addStatus` and set by `updateStatus` and by a reset. -/
def actualChange (t : T) : Happening T C → Option (Change (Count w))
  | .statusAdded iType n => if iType = t then some (add (staticCast w ⌊n⌋)) else none
  | .statusUpdated iType n => if iType = t then some (set (staticCast w ⌊n⌋)) else none
  | .cleared => some (set 0)
  | _ => none

/-- The status of the type `t` after a happening. -/
def ProgressStatus.changed (t : T) (s : ProgressStatus w) (x : Happening T C) :
    ProgressStatus w where
  currentNb := (currentChange t x).elim s.currentNb (apply s.currentNb)
  expectedNb := (expectedChange t x).elim s.expectedNb (apply s.expectedNb)
  actualNb := (actualChange t x).elim s.actualNb (apply s.actualNb)

section Changed

variable (t : T) (s : ProgressStatus w)

@[simp] lemma changed_statusAdded (iType : T) (n : ℚ) :
    s.changed t (.statusAdded iType n : Happening T C) = if iType = t then
      ⟨0, s.expectedNb + staticCast w ⌊n⌋, s.actualNb + staticCast w ⌊n⌋⟩ else s := by
  by_cases ht : iType = t
  · simp [ProgressStatus.changed, currentChange, expectedChange, addedShare, actualChange, ht,
      apply]
  · simp [ProgressStatus.changed, currentChange, expectedChange, addedShare, actualChange, ht]

@[simp] lemma changed_statusUpdated (iType : T) (n : ℚ) :
    s.changed t (.statusUpdated iType n : Happening T C)
      = if iType = t then { s with actualNb := staticCast w ⌊n⌋ } else s := by
  by_cases ht : iType = t
  · simp [ProgressStatus.changed, currentChange, expectedChange, addedShare, actualChange, ht,
      apply]
  · simp [ProgressStatus.changed, currentChange, expectedChange, addedShare, actualChange, ht]

@[simp] lemma changed_added (e : EventStruct T C) : s.changed t (.added e) = s := rfl

@[simp] lemma changed_popped (e : EventStruct T C) :
    s.changed t (.popped e) = if e.eventType = t then s.increment else s := by
  by_cases ht : e.eventType = t
  · simp [ProgressStatus.changed, currentChange, expectedChange, addedShare, actualChange, ht,
      apply, ProgressStatus.increment]
  · simp [ProgressStatus.changed, currentChange, expectedChange, addedShare, actualChange, ht]

@[simp] lemma changed_cleared : s.changed t (.cleared : Happening T C) = s.reset := rfl

end Changed

/-- The status of a type after a happening, when it has one before. -/
lemma Happens.find?_of_registered {x : Happening T C} (hx : Happens q x q') {t : T}
    {s : ProgressStatus w} (hs : q.progressStatusMap.find? t = some s) :
    q'.progressStatusMap.find? t = some (s.changed t x) := by
  cases hx with
  | statusAdded iType n =>
      rw [find?_addStatus]
      by_cases ht : t = iType
      · subst ht
        simp [addedStatus, hs]
      · simp [ht, Ne.symm ht, hs]
  | statusUpdated iType n =>
      rw [find?_updateStatus, hs, Option.map_some, changed_statusUpdated]
      simp only [eq_comm]
  | added e => exact hs
  | @popped k e hfirst =>
      rw [played, SortedMap.find?_modify]
      by_cases ht : t = e.eventType
      · subst ht
        simp [hs]
      · simp [ht, Ne.symm ht, hs]
  | cleared =>
      rw [reset, SortedMap.find?_mapValues, hs]
      rfl

/-- The status of a type after a happening, when it has none before. -/
lemma Happens.find?_of_unregistered {x : Happening T C} (hx : Happens q x q') {t : T}
    (hs : q.progressStatusMap.find? t = none) :
    q'.progressStatusMap.find? t
      = if x.registers t then some (ProgressStatus.zero.changed t x) else none := by
  cases hx with
  | statusAdded iType n =>
      rw [find?_addStatus]
      by_cases ht : t = iType
      · subst ht
        simp [addedStatus, hs, Happening.registers, ProgressStatus.ofExpected, ProgressStatus.zero]
      · simp [ht, Ne.symm ht, hs, Happening.registers]
  | statusUpdated iType n =>
      rw [find?_updateStatus, hs]
      rfl
  | added e => exact hs
  | @popped k e hfirst =>
      rw [played, SortedMap.find?_modify]
      by_cases ht : t = e.eventType
      · subst ht
        simp [hs, Happening.registers]
      · simp [ht, hs, Happening.registers]
  | cleared =>
      rw [reset, SortedMap.find?_mapValues, hs]
      rfl

/-! ### The status of a type -/

/-- The happenings from the one on that registers the type `t`. -/
def sinceRegistered (t : T) (h : List (Happening T C)) : List (Happening T C) :=
  h.dropWhile fun x => !x.registers t

lemma sinceRegistered_concat (t : T) (h : List (Happening T C)) (x : Happening T C) :
    sinceRegistered t (h ++ [x])
      = if sinceRegistered t h = [] then if x.registers t then [x] else []
        else sinceRegistered t h ++ [x] := by
  rw [sinceRegistered, List.dropWhile_append, ← sinceRegistered]
  simp only [List.isEmpty_iff]
  split_ifs with h₁ h₂
  · simp [h₂]
  · simp [h₂]
  · rfl

/-- A type is registered exactly if a status has been added to it. -/
lemma sinceRegistered_eq_nil {t : T} {h : List (Happening T C)} :
    sinceRegistered t h = [] ↔ ∀ n, .statusAdded t n ∉ h := by
  rw [sinceRegistered, List.dropWhile_eq_nil_iff]
  constructor
  · intro hnone n hmem
    exact absurd (hnone _ hmem) (by simp [Happening.registers])
  · intro hnone x hx
    cases x with
    | statusAdded iType n =>
        have hne : iType ≠ t := by
          rintro rfl
          exact hnone n hx
        simp [Happening.registers, hne]
    | _ => rfl

/-- The status that the happenings `h` make of nothing, from the moment `t` is registered. -/
def statusOf (t : T) (h : List (Happening T C)) : Option (ProgressStatus w) :=
  if sinceRegistered t h = [] then none
  else some ((sinceRegistered t h).foldl (ProgressStatus.changed t) .zero)

lemma statusOf_step {t : T} {h : List (Happening T C)} {x : Happening T C}
    (hq : q.progressStatusMap.find? t = statusOf t h) (hx : Happens q x q') :
    q'.progressStatusMap.find? t = statusOf t (h ++ [x]) := by
  rw [statusOf, sinceRegistered_concat]
  by_cases hnil : sinceRegistered t h = []
  · rw [statusOf, if_pos hnil] at hq
    rw [hx.find?_of_unregistered hq, if_pos hnil]
    cases x.registers t <;> rfl
  · rw [statusOf, if_neg hnil] at hq
    rw [hx.find?_of_registered hq, if_neg hnil, if_neg (by simp), List.foldl_append]
    rfl

/-- **A status is what the history makes of it.** -/
theorem Session.statusOf_eq {G : EventQueue T C w → Op T C → Prop} {key : String}
    {ls : List (Exchange T C w)} (hs : Session G (.fresh key) ls q) (t : T) :
    q.progressStatusMap.find? t = statusOf t (history ls) :=
  hs.happens.history (H := fun h q => q.progressStatusMap.find? t = statusOf t h) rfl
    fun _ _ _ _ hq hx => statusOf_step hq hx.1

/-- The numbers of a type change independently of each other. -/
lemma foldl_changed (t : T) (s : ProgressStatus w) (h : List (Happening T C)) :
    h.foldl (ProgressStatus.changed t) s
      = ⟨after s.currentNb (h.filterMap (currentChange t)),
        after s.expectedNb (h.filterMap (expectedChange t)),
        after s.actualNb (h.filterMap (actualChange t))⟩ := by
  induction h generalizing s with
  | nil => rfl
  | cons x h ih =>
      rw [List.foldl_cons, ih, ProgressStatus.changed]
      simp only [List.filterMap_cons, ProgressStatus.mk.injEq]
      refine ⟨?_, ?_, ?_⟩
      · cases currentChange t x <;> rfl
      · cases expectedChange (w := w) t x <;> rfl
      · cases actualChange (w := w) t x <;> rfl

/-! ### The getters -/

/-- A status is added to the type `t`, or the queue is reset. -/
def Happening.restarts (t : T) : Happening T C → Bool
  | .cleared => true
  | x => x.registers t

/-- The happenings since the last one that restarts the type `t`. -/
def sinceRestart (t : T) (h : List (Happening T C)) : List (Happening T C) :=
  h.rtakeWhile fun x => !x.restarts t

/-- The current number counts the events popped since it was last set to zero. -/
lemma after_currentChange (t : T) (h : List (Happening T C)) :
    after 0 (h.filterMap (currentChange t)) = nbOfType t (popped (sinceRestart t h)) := by
  induction h using List.reverseRecOn with
  | nil => rfl
  | append_singleton h x ih =>
      rw [List.filterMap_append, List.filterMap_cons, sinceRestart, List.rtakeWhile_concat,
        ← sinceRestart]
      cases x with
      | statusAdded iType n =>
          by_cases ht : iType = t
          · simp [currentChange, Happening.restarts, Happening.registers, ht, apply, popped,
              nbOfType]
          · simpa [currentChange, Happening.restarts, Happening.registers, ht, popped] using ih
      | statusUpdated iType n =>
          simpa [currentChange, Happening.restarts, Happening.registers, popped] using ih
      | added e => simpa [currentChange, Happening.restarts, Happening.registers, popped] using ih
      | popped e =>
          by_cases ht : e.eventType = t
          · simp [currentChange, Happening.restarts, Happening.registers, ht, apply, ih, nbOfType]
          · simp [currentChange, Happening.restarts, Happening.registers, ht, ih, nbOfType]
      | cleared => simp [currentChange, Happening.restarts, apply, popped, nbOfType]

/-- The numbers of the queue `q` are those of its history `h`. -/
structure LedgerOf (h : List (Happening T C)) (q : EventQueue T C w) : Prop where
  registered : ∀ t, q.hasProgressStatus t = true ↔ ∃ n, .statusAdded t n ∈ h
  /-- Of a type without status the getters give nothing. -/
  unregistered : ∀ t, q.hasProgressStatus t = false →
    q.getCurrentNbOfEventsOfType t = none ∧ q.getActualTotalNbOfEventsOfType t = none ∧
      ∃ message, q.getExpectedTotalNbOfEventsOfType t = .error message
  current : ∀ t, q.hasProgressStatus t = true → q.getCurrentNbOfEventsOfType t
    = some (nbOfType t (popped (sinceRestart t (sinceRegistered t h))))
  expected : ∀ t, q.hasProgressStatus t = true → q.getExpectedTotalNbOfEventsOfType t
    = .ok ((sinceRegistered t h).filterMap (addedShare t)).sum
  actual : ∀ t, q.hasProgressStatus t = true → q.getActualTotalNbOfEventsOfType t
    = some (base 0 ((sinceRegistered t h).filterMap (actualChange t))
      + (raises ((sinceRegistered t h).filterMap (actualChange t))).sum)
  overallCurrent : q.getCurrentNbOfEvents = (popped (sinceReset h)).length
  overallExpected : (∀ t n, .statusAdded t n ∈ h → 0 ≤ n) →
    q.getExpectedTotalNbOfEvents = (h.filterMap overallShare).sum

/-- A reset clears the overall current number, and a pop counts in it whatever the type. -/
lemma Session.overallCurrent {G : EventQueue T C w → Op T C → Prop} {key : String}
    {ls : List (Exchange T C w)} (hs : Session G (.fresh key) ls q) :
    q.progressStatus.currentNb = (popped (sinceReset (history ls))).length := by
  refine hs.happens.history (H := fun h q => q.progressStatus.currentNb
    = (popped (sinceReset h)).length) rfl fun h q x q' hq hx => ?_
  rw [sinceReset, List.foldl_append, ← sinceReset]
  cases hx.1 with
  | statusAdded t n =>
      rw [progressStatus_addStatus]
      simpa [addedOverall, popped] using hq
  | statusUpdated t n => simpa [popped] using hq
  | added e => simpa [withEvent, popped] using hq
  | popped hfirst =>
      rw [played, ProgressStatus.currentNb_increment, hq]
      simp
  | cleared => rfl

/-- The overall expected number is the sum of what has ever been added to it. -/
lemma Session.overallExpected {G : EventQueue T C w → Op T C → Prop} {key : String}
    {ls : List (Exchange T C w)} (hs : Session G (.fresh key) ls q)
    (hn : ∀ t n, .statusAdded t n ∈ history ls → 0 ≤ n) :
    q.progressStatus.expectedNb = ((history ls).filterMap overallShare).sum := by
  refine hs.happens.history (H := fun h q => (∀ t n, .statusAdded t n ∈ h → 0 ≤ n) →
    q.progressStatus.expectedNb = (h.filterMap overallShare).sum) (fun _ => rfl)
    (fun h q x q' hq hx hn => ?_) hn
  have hprev := hq fun t n hmem => hn t n (List.mem_append_left _ hmem)
  rw [List.filterMap_append, List.sum_append, ← hprev]
  cases hx.1 with
  | statusAdded t n =>
      rw [expectedNb_addStatus t (hn t n (by simp))]
      simp [overallShare]
  | statusUpdated t n =>
      rw [expectedNb_updateStatus]
      simp [List.filterMap_cons, overallShare]
  | added e => simp [List.filterMap_cons, overallShare, withEvent]
  | popped hfirst => simp [List.filterMap_cons, overallShare, played]
  | cleared => simp [List.filterMap_cons, overallShare, reset]

/-- **The getters read the history.** After any session from a new queue the getters of a type raise
or abort if and only if no status has been added to it. Otherwise they give, from the history since
then, the number of its events popped since it was last given a status or the queue reset, the sum
of all that was ever added to its expected number, resets notwithstanding, and the actual number
last set with what was added to it since. The program has no defined behaviour for a number that is
negative or beyond the range of `Count_T`; of such a number the model takes what `staticCast` makes
of it. -/
theorem Session.ledger {G : EventQueue T C w → Op T C → Prop} {key : String}
    {ls : List (Exchange T C w)} (hs : Session G (.fresh key) ls q) : LedgerOf (history ls) q := by
  have hnone : ∀ t, q.hasProgressStatus t = false ↔ sinceRegistered t (history ls) = [] := by
    intro t
    rw [hasProgressStatus, hs.statusOf_eq t, statusOf]
    split_ifs with hnil
    · simp [hnil]
    · simp [hnil]
  have hstatus : ∀ t, q.hasProgressStatus t = true → q.progressStatusMap.find? t
      = some ((sinceRegistered t (history ls)).foldl (ProgressStatus.changed t) .zero) := by
    intro t ht
    have hne : sinceRegistered t (history ls) ≠ [] := fun hnil => by
      rw [(hnone t).mpr hnil] at ht
      exact absurd ht (by decide)
    rw [hs.statusOf_eq t, statusOf, if_neg hne]
  constructor
  · intro t
    rw [← Bool.not_eq_false, hnone t, sinceRegistered_eq_nil]
    push Not
    rfl
  · intro t ht
    have hfind : q.progressStatusMap.find? t = none := by
      rw [hs.statusOf_eq t, statusOf, if_pos ((hnone t).mp ht)]
    simp [getCurrentNbOfEventsOfType, getActualTotalNbOfEventsOfType,
      getExpectedTotalNbOfEventsOfType, hfind]
  · intro t ht
    rw [getCurrentNbOfEventsOfType, hstatus t ht, foldl_changed]
    exact congrArg some (after_currentChange t _)
  · intro t ht
    have hadds : (sinceRegistered t (history ls)).filterMap (expectedChange (w := w) t)
        = ((sinceRegistered t (history ls)).filterMap (addedShare t)).map add := by
      rw [List.map_filterMap]
      rfl
    rw [getExpectedTotalNbOfEventsOfType, hstatus t ht, foldl_changed, hadds]
    simp [after_map_add, ProgressStatus.zero]
  · intro t ht
    rw [getActualTotalNbOfEventsOfType, hstatus t ht, foldl_changed]
    exact congrArg some (after_eq _ _)
  · exact hs.overallCurrent
  · exact hs.overallExpected

/-- A status added twice, with an event popped and a count lowered in between, a type without status
and a reset. -/
theorem Session.ledger_sample :
    let ops : List (Op SampleType ℕ) := [.addStatus .bkgReq (7 / 2), .updateStatus .brkPt 4,
      .addEvent (sampleEvent .bkgReq 0 1), .popEvent (sampleEvent .bkgReq 0 0),
      .addStatus .bkgReq 2, .updateStatus .bkgReq 1, .reset]
    let q : EventQueue SampleType ℕ 32 := fresh "EQ01"
    LedgerOf (history (q.exchanges ops)) (q.after ops) :=
  Session.ledger (G := fun _ _ => True) (session_exchanges (by decide +kernel))

end Sevmgr
