import Sevmgr.Sessions.Conservation

/-!
When `select` stops on the date-time it is asked for.

`select` looks its date-time up among the stamps and then pops until it meets an event of that
date-time. The two do not always go together: an event moved on insertion lies under a stamp that is
not its own date-time, and a date-time within a millisecond has the stamp of the millisecond.

* `PlayInv` and `play_spec`: what the popping loop shared by `run` and `select` does on a queue
  whose events all have a registered type. It stops on the first event that shows the view asked
  for.
* `SelectStops`: when the date-time is found, the final assertion holds, and nothing after the event
  on which the loop stops has been removed.
* `select_stops_iff`: this is so exactly when some pending event has that date-time, or it is the
  oldest one. `select_drains` is a queue that is played to its end.
-/

namespace Sevmgr

open EventQueue

variable {T C : Type} [Stdair T] {w : ℕ} {q : EventQueue T C w}

/-! ### The popping loop -/

section Play

variable {β : Type} {viewOf : EventStruct T C → β} {initial target : β} {io : EventStruct T C}
  {v : Playing T C w β}

/-- The invariant of the popping loop: it has popped the first events of the queue `q`, none of
which but perhaps the last shows the view it looks for. -/
structure PlayInv (viewOf : EventStruct T C → β) (initial target : β) (q : EventQueue T C w)
    (io : EventStruct T C) (v : Playing T C w β) : Prop where
  exception : v.exception = none
  registered : PendingRegistered v.queue
  values : q.eventList.values = v.popped ++ v.queue.eventList.values
  view : (v.popped = [] ∧ v.event = io ∧ v.view = initial) ∨
    ∃ es e, v.popped = es ++ [e] ∧ v.event = e ∧ v.view = viewOf e ∧ initial ≠ target ∧
      ∀ e' ∈ es, viewOf e' ≠ target

/-- No event popped lies after the one last popped. -/
lemma PlayInv.le_event (hv : PlayInv viewOf initial target q io v) (hq : StampsAgree q)
    {e : EventStruct T C} (he : e ∈ v.popped) : e.eventTimeStamp ≤ v.event.eventTimeStamp := by
  have hsorted : (v.popped.map EventStruct.eventTimeStamp).Pairwise (· < ·) := by
    have hkeys : q.eventList.keys.Pairwise (· < ·) := q.eventList.sorted
    rw [← hq.stamps_values, hv.values, List.map_append, List.pairwise_append] at hkeys
    exact hkeys.1
  rcases hv.view with ⟨hes, -⟩ | ⟨es, last, hes, hlast, -⟩
  · rw [hes] at he
    exact absurd he List.not_mem_nil
  · rw [hes, List.map_append, List.pairwise_append] at hsorted
    rw [hes, List.mem_append, List.mem_singleton] at he
    rw [hlast]
    rcases he with he | rfl
    · exact (hsorted.2.2 _ (List.mem_map_of_mem he) _ (List.mem_singleton_self _)).le
    · exact le_rfl

variable [DecidableEq β]

/-- A round of the loop keeps the invariant. -/
lemma PlayInv.round (hv : PlayInv viewOf initial target q io v)
    (hc : (playLoop viewOf target).cond v = true) :
    PlayInv viewOf initial target q io (v.round viewOf) := by
  obtain ⟨-, hne, hview⟩ := (playLoop_cond viewOf target).mp hc
  obtain ⟨k, e, hfirst⟩ := SortedMap.exists_first? hne
  rw [round_of_registered viewOf hfirst (hv.registered _ (SortedMap.mem_of_first? hfirst))]
  refine ⟨rfl, hv.registered.played hfirst, ?_, Or.inr ⟨v.popped, e, rfl, rfl, rfl, ?_⟩⟩
  · calc q.eventList.values = v.popped ++ v.queue.eventList.values := hv.values
      _ = v.popped ++ e :: (v.queue.eventList.erase k).values := by
          rw [SortedMap.values_eq_cons_of_first? hfirst]
      _ = (v.popped ++ [e]) ++ (v.queue.played k e).eventList.values := by
          rw [List.append_assoc, List.singleton_append, EventQueue.played]
  · rcases hv.view with ⟨hes, -, hinit⟩ | ⟨es, e', hes, -, hlast, hinit, hall⟩
    · rw [hes]
      exact ⟨hinit ▸ hview, fun _ h => absurd h List.not_mem_nil⟩
    · rw [hes]
      refine ⟨hinit, fun e₀ he₀ => ?_⟩
      rcases List.mem_append.mp he₀ with he₀ | he₀
      · exact hall e₀ he₀
      · rw [List.mem_singleton.mp he₀, ← hlast]
        exact hview

variable (viewOf initial target)

/-- **What the popping loop does** when every pending event has a registered type: it pops events in
the order of the list, and it stops on the first that shows the view it looks for, or else on an
empty queue. -/
theorem play_spec (hq : PendingRegistered q) (io : EventStruct T C) :
    PlayInv viewOf initial target q io (q.play viewOf initial target io) ∧
      ((q.play viewOf initial target io).queue.eventList = .empty ∨
        (q.play viewOf initial target io).view = target) := by
  have hinv : PlayInv viewOf initial target q io (q.play viewOf initial target io) :=
    (playLoop viewOf target).exec_invariant (fun _ hc hv => hv.round hc)
      ⟨rfl, hq, rfl, Or.inl ⟨rfl, rfl, rfl⟩⟩
  refine ⟨hinv, ?_⟩
  have hexit := (playLoop viewOf target).cond_exec ⟨q, io, initial, none, []⟩
  by_contra hgo
  rw [not_or] at hgo
  exact absurd ((playLoop_cond viewOf target).mpr ⟨hinv.exception, hgo.1, hgo.2⟩)
    (Bool.not_eq_true _ ▸ hexit)

/-- The loop ends on the view it looks for exactly when it starts with it or some event shows it. -/
theorem view_play_iff (hq : PendingRegistered q) (io : EventStruct T C) :
    (q.play viewOf initial target io).view = target ↔
      initial = target ∨ ∃ e ∈ q.eventList.values, viewOf e = target := by
  obtain ⟨hinv, hexit⟩ := play_spec viewOf initial target hq io
  set v := q.play viewOf initial target io
  refine ⟨?_, ?_⟩
  · intro hview
    rcases hinv.view with ⟨-, -, hinit⟩ | ⟨es, e, hes, -, hlast, -⟩
    · exact Or.inl (hinit.symm.trans hview)
    · refine Or.inr ⟨e, ?_, hlast.symm.trans hview⟩
      rw [hinv.values, hes]
      simp
  · intro hfound
    rcases hexit with hempty | hview
    · -- the queue has been played to its end
      have hvalues := hinv.values
      rw [hempty, SortedMap.values_empty, List.append_nil] at hvalues
      rcases hinv.view with ⟨hes, -, hinit⟩ | ⟨es, e, hes, -, hlast, hne, hall⟩
      · rcases hfound with rfl | ⟨e, he, -⟩
        · exact hinit
        · rw [hvalues, hes] at he
          exact absurd he List.not_mem_nil
      · rcases hfound with rfl | ⟨e', he', hview⟩
        · exact absurd rfl hne
        · rw [hvalues, hes, List.mem_append, List.mem_singleton] at he'
          rcases he' with he' | rfl
          · exact absurd hview (hall e' he')
          · rw [hlast, hview]
    · exact hview

end Play

/-! ### Selecting a date-time -/

/-- The loop of `select`. -/
abbrev selection (q : EventQueue T C w) (io : EventStruct T C) (d : DateTime) :
    Playing T C w DateTime :=
  q.play EventStruct.eventTime (defaultEventOldestDateTime T) d io

/-- A date-time that is found is played for, and the final assertion fails when it is not met. -/
lemma select_of_found (hq : PendingRegistered q) {d : DateTime}
    (hfind : q.hasEventDateTime d = true) (io : EventStruct T C) :
    q.select io d = ⟨if (selection q io d).view = d then .returned true else .aborted,
      (selection q io d).queue, (selection q io d).event, (selection q io d).popped⟩ := by
  have hexception :=
    (play_spec EventStruct.eventTime (defaultEventOldestDateTime T) d hq io).1.exception
  rw [select, if_neg (by simp [hfind])]
  simp only [hexception]

/-- When the date-time is found, the loop of `select` stops on it and the final assertion holds, and
no event with a stamp greater than that of the event it stops on has been removed. -/
def SelectStops (q : EventQueue T C w) (io : EventStruct T C) (d : DateTime) : Prop :=
  q.hasEventDateTime d = true →
    (q.select io d).outcome = .returned true ∧
      ∀ e ∈ (q.select io d).popped, e.eventTimeStamp ≤ (q.select io d).event.eventTimeStamp

/-- **`select` stops on a date-time that it finds** exactly when some pending event has that
date-time or it is the oldest one. -/
theorem select_stops_iff {key : String} {regs : List (T × ℚ)} {ls : List (Exchange T C w)}
    (hs : Session Op.Plays (.prepared key regs) ls q) (io : EventStruct T C) (d : DateTime) :
    SelectStops q io d ↔ (q.hasEventDateTime d = true →
      d = defaultEventOldestDateTime T ∨ ∃ e ∈ q.eventList.values, e.eventTime = d) := by
  have hq := hs.pendingRegistered
  have hinv := (play_spec EventStruct.eventTime (defaultEventOldestDateTime T) d hq io).1
  have hview := view_play_iff EventStruct.eventTime (defaultEventOldestDateTime T) d hq io
  refine imp_congr_right fun hfind => ?_
  rw [select_of_found hq hfind, eq_comm (a := d), ← hview]
  refine ⟨?_, ?_⟩
  · rintro ⟨hout, -⟩
    by_contra hne
    rw [if_neg hne] at hout
    exact absurd hout (by simp)
  · intro hmet
    rw [if_pos hmet]
    exact ⟨rfl, fun e he => hinv.le_event hs.stampsAgree he⟩

/-- A booking request of the millisecond that is selected. -/
theorem select_stops_iff_sample :
    SelectStops (sampleStart.after [.addEvent (sampleEvent .bkgReq 5 1)]) (sampleEvent .bkgReq 0 0)
      5000 :=
  (select_stops_iff (session_exchanges (show sampleStart.Admits Op.Plays
    [.addEvent (sampleEvent .bkgReq 5 1)] by decide +kernel)) _ _).mpr (by decide +kernel)

/-- Two booking requests of the oldest date-time. The second one lies under the stamp of the next
millisecond, which is therefore found; but no event has that date-time, and the queue is played to
its end. -/
theorem select_drains : ∃ ls q,
    Session Op.Plays sampleStart ls q ∧ (∀ e ∈ added (history ls), OnTime e) ∧
      ¬ SelectStops q (sampleEvent .bkgReq 0 0) 1000 ∧
      (q.select (sampleEvent .bkgReq 0 0) 1000).queue.isQueueDone = true := by
  have hops : sampleStart.Admits Op.Plays
      [.addEvent (sampleEvent .bkgReq 0 1), .addEvent (sampleEvent .bkgReq 0 2)] := by
    decide +kernel
  refine ⟨_, _, session_exchanges hops, by decide +kernel, fun h => ?_, by decide +kernel⟩
  exact absurd (h (by decide +kernel)).1 (by decide +kernel)

end Sevmgr
