import Sevmgr.Queue.AddEvent
import Sevmgr.Queue.PopEvent

/-!
Sessions read happening by happening.

A call of `run` or `select` pops any number of events, and some calls do nothing. What the
invariants of a session need is only what becomes of the queue at each happening:

* `Happens`: what each happening makes of the queue. Every invariant is proved along it, one case
  per happening.
* `run_happens_play`: the popping loop is a run of pops, whatever its view and whether or not an
  exception breaks it off.
* `Step.happens`, `Session.happens`: so every call, and every session, is a run of happenings, those
  of its history. A session whose calls are admitted by `G` gives happenings admitted by `G`.
-/

namespace Sevmgr

open EventQueue

variable {T C : Type} [Stdair T] {w : ℕ}

/-- What a happening makes of the queue. -/
inductive Happens : EventQueue T C w → Happening T C → EventQueue T C w → Prop where
  | statusAdded (q : EventQueue T C w) (t : T) (n : ℚ) :
      Happens q (.statusAdded t n) (q.addStatus t n)
  | statusUpdated (q : EventQueue T C w) (t : T) (n : ℚ) :
      Happens q (.statusUpdated t n) (q.updateStatus t n)
  | added (q : EventQueue T C w) (e : EventStruct T C) :
      Happens q (.added e) (q.withEvent (q.addedStamp e) e)
  | popped {q : EventQueue T C w} {k : ℤ} {e : EventStruct T C}
      (h : q.eventList.first? = some (k, e)) : Happens q (.popped e) (q.played k e)
  | cleared (q : EventQueue T C w) : Happens q .cleared q.reset

/-- The call that a happening stands for; a pop stands for none, it may be one of many. -/
def Happening.call : Happening T C → Option (Op T C)
  | .statusAdded t n => some (.addStatus t n)
  | .statusUpdated t n => some (.updateStatus t n)
  | .added e => some (.addEvent e)
  | .popped _ => none
  | .cleared => some .reset

/-- A happening admitted by `G`. -/
def HappensIf (G : EventQueue T C w → Op T C → Prop) (q : EventQueue T C w) (x : Happening T C)
    (q' : EventQueue T C w) : Prop :=
  Happens q x q' ∧ ∀ op, x.call = some op → G q op

variable {G : EventQueue T C w → Op T C → Prop} {q q' : EventQueue T C w}

/-- A pop is admitted whatever `G`. -/
lemma HappensIf.popped {k : ℤ} {e : EventStruct T C} (h : q.eventList.first? = some (k, e)) :
    HappensIf G q (.popped e) (q.played k e) :=
  ⟨.popped h, fun _ hc => by simp [Happening.call] at hc⟩

/-! ### The popping loop -/

section Play

variable {β : Type} (viewOf : EventStruct T C → β)

/-- A round of the loop on an event whose type has a status. -/
lemma round_of_registered {v : Playing T C w β} {k : ℤ} {e : EventStruct T C}
    (h : v.queue.eventList.first? = some (k, e))
    (ht : e.eventType ∈ v.queue.progressStatusMap.keys) :
    v.round viewOf = ⟨v.queue.played k e, e, viewOf e, none, v.popped ++ [e]⟩ := by
  obtain ⟨s, hs⟩ := SortedMap.exists_find? ht
  rw [Playing.round, popEvent_of_registered h hs]

/-- A round of the loop on an event whose type has none. -/
lemma round_of_unregistered {v : Playing T C w β} {k : ℤ} {e : EventStruct T C}
    (h : v.queue.eventList.first? = some (k, e))
    (ht : e.eventType ∉ v.queue.progressStatusMap.keys) :
    v.round viewOf = ⟨v.queue.played k e, e, v.view,
      some (.noProgressStatus (v.queue.played k e).display e.eventType), v.popped ++ [e]⟩ := by
  rw [Playing.round, popEvent_of_unregistered h ht]

variable [DecidableEq β] (target : β)

/-- What the test of the loop says. -/
lemma playLoop_cond {v : Playing T C w β} : (playLoop viewOf target).cond v = true ↔
    v.exception = none ∧ v.queue.eventList ≠ .empty ∧ v.view ≠ target := by
  simp only [playLoop, Bool.and_eq_true, Option.isNone_iff_eq_none, Bool.not_eq_true', isQueueDone,
    SortedMap.isEmpty_eq_false, decide_eq_true_eq, and_assoc]

/-- Either way the round pops the first event. -/
lemma exists_round {v : Playing T C w β} (hc : (playLoop viewOf target).cond v = true) :
    ∃ k e, v.queue.eventList.first? = some (k, e) ∧ (v.round viewOf).queue = v.queue.played k e ∧
      (v.round viewOf).popped = v.popped ++ [e] := by
  obtain ⟨k, e, hfirst⟩ := SortedMap.exists_first? ((playLoop_cond viewOf target).mp hc).2.1
  refine ⟨k, e, hfirst, ?_⟩
  by_cases ht : e.eventType ∈ v.queue.progressStatusMap.keys
  · rw [round_of_registered viewOf hfirst ht]
    exact ⟨rfl, rfl⟩
  · rw [round_of_unregistered viewOf hfirst ht]
    exact ⟨rfl, rfl⟩

/-- **The popping loop is a run of pops.** -/
theorem run_happens_play (initial : β) (q : EventQueue T C w) (io : EventStruct T C) :
    Run (HappensIf G) q ((q.play viewOf initial target io).popped.map .popped)
      (q.play viewOf initial target io).queue := by
  refine (playLoop viewOf target).exec_invariant
    (I := fun v => Run (HappensIf G) q (v.popped.map .popped) v.queue) (fun v hc ih => ?_) (.nil q)
  obtain ⟨k, e, hfirst, hq, hes⟩ := exists_round viewOf target hc
  show Run (HappensIf G) q ((v.round viewOf).popped.map .popped) (v.round viewOf).queue
  rw [hq, hes, List.map_append]
  exact ih.snoc (HappensIf.popped hfirst)

end Play

/-! ### Calls and sessions -/

/-- The queue that `popEvent` leaves is reached by the pops it records. -/
lemma run_happens_popEvent (q : EventQueue T C w) (io : EventStruct T C) :
    Run (HappensIf G) q ((q.popEvent io).popped.map .popped) (q.popEvent io).queue := by
  cases hf : q.eventList.first? with
  | none =>
      rw [popEvent_of_empty (SortedMap.first?_eq_none.mp hf)]
      exact .nil q
  | some p =>
      obtain ⟨hq, -, hes⟩ := popEvent_of_first (e := p.2) (k := p.1) hf io
      rw [hq, hes]
      exact .single (HappensIf.popped hf)

lemma run_happens_select (q : EventQueue T C w) (io : EventStruct T C) (d : DateTime) :
    Run (HappensIf G) q ((q.select io d).popped.map .popped) (q.select io d).queue := by
  rw [select]
  split_ifs
  · exact .nil q
  · exact run_happens_play _ _ _ q io

/-- **Every call is a run of its happenings.** -/
theorem Step.happens {l : Exchange T C w} (h : Step q l q') (hG : G q l.1) :
    Run (HappensIf G) q l.happenings q' := by
  obtain ⟨op, eff⟩ := l
  obtain ⟨heff, -, rfl⟩ := h
  simp only at heff hG
  subst heff
  have hcall : ∀ op', (some op : Option (Op T C)) = some op' → G q op' := by
    rintro _ ⟨⟩
    exact hG
  cases op with
  | addStatus t n => exact .single ⟨.statusAdded q t n, hcall⟩
  | updateStatus t n => exact .single ⟨.statusUpdated q t n, hcall⟩
  | addEvent e =>
      refine .single ⟨?_, hcall⟩
      simp only [Op.exec, addEvent_eq]
      exact .added q e
  | popEvent e => exact run_happens_popEvent q e
  | run e => exact run_happens_play _ _ _ q e
  | select e d => exact run_happens_select q e d
  | reset => exact .single ⟨.cleared q, hcall⟩

/-- **Every session is a run of the happenings of its history.** -/
theorem Session.happens {ls : List (Exchange T C w)} (h : Session G q ls q') :
    Run (HappensIf G) q (history ls) q' :=
  h.refine Exchange.happenings fun _ _ _ hs => hs.1.happens hs.2

end Sevmgr
