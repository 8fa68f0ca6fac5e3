import Sevmgr.Queue.Delays
import Sevmgr.Queue.Retries
import Sevmgr.Sessions.Pending

/-!
How late the events of a session are.

* `Op.Uncrowded`: events are added on time, and only while few of them are pending.
* `LateByAtMost`: the stamp of an event lies at most so many milliseconds after its date-time.
* `Session.delays_bounded`: so the crowd that insertions meet bounds the delay of every event, and
  it bounds how often an insertion is tried again, which the counter in the source does not.
-/

namespace Sevmgr

open EventQueue

variable {T C : Type} [Stdair T] {w n : ℕ} {q q' : EventQueue T C w}

/-- An event is added on time, and while at most `n` events are pending. -/
def Op.Uncrowded (n : ℕ) (q : EventQueue T C w) : Op T C → Prop
  | .addEvent e => OnTime e ∧ q.eventList.size ≤ n
  | _ => True

instance (q : EventQueue T C w) : ∀ op, Decidable (Op.Uncrowded n q op)
  | .addEvent e => inferInstanceAs (Decidable (OnTime e ∧ q.eventList.size ≤ n))
  | .addStatus _ _ | .updateStatus _ _ | .popEvent _ | .run _ | .select _ _ | .reset =>
      .isTrue trivial

/-- The stamp of the event is not before its date-time, and at most `n` milliseconds after it. -/
def LateByAtMost (n : ℕ) (e : EventStruct T C) : Prop :=
  e.eventTime ≤ defaultEventOldestDateTime T + 1000 * e.eventTimeStamp ∧
    defaultEventOldestDateTime T + 1000 * e.eventTimeStamp ≤ e.eventTime + 1000 * n

/-- An event added on time to a queue that is not crowded is not late. -/
lemma lateByAtMost_addedStamp {e : EventStruct T C} (he : OnTime e) (hsize : q.eventList.size ≤ n) :
    LateByAtMost n (e.stampedAt (q.addedStamp e)) := by
  obtain ⟨m, hm, hk⟩ := q.exists_takenInARow e
  have hle := takenInARow_le hm
  rw [OnTime] at he
  rw [LateByAtMost, EventStruct.eventTime_stampedAt, EventStruct.eventTimeStamp_stampedAt, hk, he]
  refine ⟨by linarith, ?_⟩
  have : (m : ℤ) ≤ n := by omega
  linarith

/-- No event popped so far, and none that is pending, is late by more than `n` milliseconds. -/
def NoneLate (n : ℕ) (h : List (Happening T C)) (q : EventQueue T C w) : Prop :=
  ∀ e ∈ popped h ++ q.eventList.values, LateByAtMost n e

/-- One happening of a session that is not crowded makes no event late. -/
lemma NoneLate.step {h : List (Happening T C)} {x : Happening T C} (hq : NoneLate n h q)
    (hx : HappensIf (Op.Uncrowded n) q x q') : NoneLate n (h ++ [x]) q' := by
  obtain ⟨hx, hcall⟩ := hx
  intro e he
  rw [popped_append, List.mem_append, List.mem_append] at he
  cases hx with
  | statusAdded t m =>
      rw [eventList_addStatus] at he
      exact hq e (by simpa [popped] using he)
  | statusUpdated t m =>
      rw [eventList_updateStatus] at he
      exact hq e (by simpa [popped] using he)
  | added y =>
      rcases he with (he | he) | he
      · exact hq e (List.mem_append_left _ he)
      · exact absurd he List.not_mem_nil
      · obtain ⟨p, hp, rfl⟩ := List.mem_map.mp he
        rcases (mem_withEvent (q.addedStamp_notMem y)).mp hp with rfl | hp
        · exact lateByAtMost_addedStamp (hcall _ rfl).1 (hcall _ rfl).2
        · exact hq p.2 (List.mem_append_right _ (List.mem_map_of_mem hp))
  | @popped k y hfirst =>
      have hvalues : q.eventList.values = y :: (q.played k y).eventList.values :=
        SortedMap.values_eq_cons_of_first? hfirst
      refine hq e ?_
      rw [hvalues, List.mem_append, List.mem_cons]
      simpa [or_assoc] using he
  | cleared =>
      rcases he with (he | he) | he
      · exact hq e (List.mem_append_left _ he)
      · exact absurd he List.not_mem_nil
      · exact absurd he List.not_mem_nil

/-- **The crowd bounds the delays.** When at most `n` events are pending whenever one is added, no
event is ever played or left pending more than `n` milliseconds after its date-time, and no
insertion is tried again more than `n` times. -/
theorem Session.delays_bounded {key : String} {regs : List (T × ℚ)} {ls : List (Exchange T C w)}
    (hs : Session (Op.Uncrowded n) (.prepared key regs) ls q) :
    (∀ e ∈ popped (history ls) ++ q.eventList.values, LateByAtMost n e) ∧
      ∀ ls₁ e eff ls₂ q₁, ls = ls₁ ++ (.addEvent e, eff) :: ls₂ →
        Session (Op.Uncrowded n) (.prepared key regs) ls₁ q₁ → ∀ m, q₁.Retries e m → m ≤ n := by
  refine ⟨?_, ?_⟩
  · refine hs.happens.history (H := NoneLate n) ?_ fun h q₁ x q₂ hq hx => hq.step hx
    intro e he
    rw [SortedMap.values, eventList_prepared] at he
    exact absurd he List.not_mem_nil
  · rintro ls₁ e eff ls₂ q₁ rfl hs₁ m hm
    obtain ⟨q₂, hs₂, hrest⟩ := Run.append_iff.mp hs
    have hstep : ∀ (s : EventQueue T C w) l s' s'', (Step s l s' ∧ Op.Uncrowded n s l.1) →
        (Step s l s'' ∧ Op.Uncrowded n s l.1) → s' = s'' :=
      fun _ _ _ _ h h' => h.1.2.2.symm.trans h'.1.2.2
    obtain rfl := hs₂.unique hstep hs₁
    cases hrest with
    | cons hx _ => exact (takenInARow_le (retries_iff.mp hm)).trans hx.2.2

/-- Two booking requests of the first millisecond are added before any is played, and a break point
of the second when one is left. -/
theorem Session.delays_bounded_sample :
    let ops : List (Op SampleType ℕ) := [.addEvent (sampleEvent .bkgReq 0 1),
      .addEvent (sampleEvent .bkgReq 0 2), .popEvent (sampleEvent .bkgReq 0 0),
      .addEvent (sampleEvent .brkPt 1 3), .run (sampleEvent .bkgReq 0 0)]
    let ls := sampleStart.exchanges ops
    let q := sampleStart.after ops
    (∀ e ∈ popped (history ls) ++ q.eventList.values, LateByAtMost 1 e) ∧
      ∀ ls₁ e eff ls₂ q₁, ls = ls₁ ++ (.addEvent e, eff) :: ls₂ →
        Session (Op.Uncrowded 1) sampleStart ls₁ q₁ → ∀ m, q₁.Retries e m → m ≤ 1 :=
  Session.delays_bounded (session_exchanges (by decide +kernel))

end Sevmgr
