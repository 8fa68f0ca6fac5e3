import Sevmgr.Interactive.Playing
import Sevmgr.Sessions.SampleQueue

/-!
The start of the interactive program.

* `mainQueue`: the sample queue, which `main` builds.
* `playable_mainQueue`: it is playable if no two of its events have the same stamp.
* `atTape_mainConsole`: the loop begins with the first of its events as the current one.
* `Calendar.queue`, `Calendar.console`: the queue and the console for the events of the calendar.
-/

namespace Sevmgr

open EventQueue

variable {T C : Type} [Stdair T] {w : ℕ} {e₁ e₂ b₁ b₂ : EventStruct T C}

/-- The sample queue of the program. -/
def mainQueue (w : ℕ) (e₁ e₂ b₁ b₂ : EventStruct T C) : EventQueue T C w :=
  (EventQueue.fresh "EQ01").buildSampleQueue e₁ e₂ b₁ b₂

/-- The events of the sample queue as the program relies on them: no two have the same stamp. -/
structure IsDistinctSample (e₁ e₂ b₁ b₂ : EventStruct T C) : Prop extends
    IsSample e₁ e₂ b₁ b₂ where
  nodup : ([e₁, e₂, b₁, b₂].map EventStruct.eventTimeStamp).Nodup
  oldest : (1000 : ℤ) ∣ defaultEventOldestDateTime T

/-! ### The queue -/

/-- The queue holds the four events. -/
lemma values_mainQueue (h : IsDistinctSample e₁ e₂ b₁ b₂) :
    (mainQueue w e₁ e₂ b₁ b₂).eventList.values.Perm [e₁, e₂, b₁, b₂] := by
  rw [mainQueue, eventList_buildSampleQueue]
  exact values_addEvents_of_nodup rfl h.nodup

lemma stampsAgree_mainQueue (e₁ e₂ b₁ b₂ : EventStruct T C) :
    StampsAgree (mainQueue w e₁ e₂ b₁ b₂) := by
  have hentries := perm_addEvents (EventQueue.fresh "EQ01" : EventQueue T C w) [e₁, e₂, b₁, b₂]
  intro p hp
  rw [mainQueue, eventList_buildSampleQueue, hentries.mem_iff] at hp
  rcases List.mem_append.mp hp with hp | hp
  · rw [← List.map_uncurry_zip_eq_zipWith, List.mem_map] at hp
    obtain ⟨x, -, rfl⟩ := hp
    rfl
  · exact absurd hp List.not_mem_nil

lemma playable_mainQueue (h : IsDistinctSample e₁ e₂ b₁ b₂) :
    Playable (mainQueue w e₁ e₂ b₁ b₂) where
  registered := pendingRegistered_buildSampleQueue rfl h.toIsSample
  stamps := stampsAgree_mainQueue e₁ e₂ b₁ b₂
  onTime e he := h.onTime e ((values_mainQueue h).mem_iff.mp he)
  oldest := h.oldest
  dated e he := h.dated e ((values_mainQueue h).mem_iff.mp he)

/-- Two events are expected of each type, and none has been played. -/
lemma find?_mainQueue (e₁ e₂ b₁ b₂ : EventStruct T C) {t : T} (ht : t = bkgReq ∨ t = brkPt) :
    (mainQueue w e₁ e₂ b₁ b₂).progressStatusMap.find? t = some (.ofExpected 2) := by
  have hne : (bkgReq : T) ≠ brkPt := Stdair.bkgReq_ne_brkPt
  simp only [mainQueue, buildSampleQueue, progressStatusMap_addEvent, find?_addStatus]
  rcases ht with rfl | rfl
  · rw [if_neg hne, if_pos rfl]
    simp [addedStatus, EventQueue.fresh, staticCast, ProgressStatus.ofExpected]
  · rw [if_pos rfl, addedStatus, progressStatusMap_addEvent, progressStatusMap_addEvent,
      find?_addStatus, if_neg hne.symm]
    simp [EventQueue.fresh, staticCast, ProgressStatus.ofExpected]

lemma currentNb_mainQueue (e₁ e₂ b₁ b₂ : EventStruct T C) :
    (mainQueue w e₁ e₂ b₁ b₂).progressStatus.currentNb = 0 := by
  have hadd : ∀ (q : EventQueue T C w) (e : EventStruct T C),
      (q.addEvent e).queue.progressStatus = q.progressStatus := fun _ _ => rfl
  simp only [mainQueue, buildSampleQueue, hadd, progressStatus_addStatus, addedOverall]
  rfl

/-! ### The start -/

lemma mainConsole_eq (e₁ e₂ b₁ b₂ io : EventStruct T C) : mainConsole w e₁ e₂ b₁ b₂ io
    = ⟨((mainQueue w e₁ e₂ b₁ b₂).managerPopEvent io).queue,
      ((mainQueue w e₁ e₂ b₁ b₂).managerPopEvent io).event⟩ := rfl

/-- The loop begins with the first event played. -/
lemma atTape_mainConsole (h : IsDistinctSample e₁ e₂ b₁ b₂) (io : EventStruct T C) :
    ∃ t, AtTape (mainQueue w e₁ e₂ b₁ b₂) t (mainConsole w e₁ e₂ b₁ b₂ io) := by
  have hperm := values_mainQueue (w := w) h
  cases hvalues : (mainQueue w e₁ e₂ b₁ b₂).eventList.values with
  | nil =>
      rw [hvalues] at hperm
      exact absurd (List.nil_perm.mp hperm) (by simp)
  | cons e es =>
      rw [mainConsole_eq]
      exact ⟨_, .start (playable_mainQueue h).registered hvalues io⟩

/-! ### The events of the calendar -/

namespace Calendar

/-- The sample queue of the events of the calendar. -/
def queue : EventQueue CalendarType ℕ 32 :=
  mainQueue 32 request requestForCRS breakPoint1 breakPoint2

/-- The console at the start of the loop. -/
def console : Console CalendarType ℕ 32 :=
  mainConsole 32 request requestForCRS breakPoint1 breakPoint2 request

lemma isDistinctSample : IsDistinctSample request requestForCRS breakPoint1 breakPoint2 where
  toIsSample := isSample_calendar
  nodup := by decide +kernel
  oldest := by decide +kernel

lemma playable_queue : Playable queue := playable_mainQueue isDistinctSample

lemma atTape_console : AtTape queue
    ⟨[breakPoint1], [requestForCRS, breakPoint2, request]⟩ console := by
  refine .start playable_queue.registered ?_ request
  decide +kernel

end Calendar

end Sevmgr
