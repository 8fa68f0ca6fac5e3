import Sevmgr.Library.Tape
import Sevmgr.Queue.Delays
import Sevmgr.Sessions.Running

/-!
Successive runs as the winding of a tape of the events.

* `seek_run`: a call of `run` seeks the next break point.
* `afterRuns`, `seek_iterate_runs`: so many successive calls are so many seeks.
* `runs_play`: what they play, which events they leave, and when they have emptied the queue.
* `runs_find_breakPoints`: the break points of a list of events are found in the order of their
  date-times when they lie further apart than any event is moved.
-/

namespace Sevmgr

open EventQueue

variable {T C : Type} [Stdair T] {w : ℕ} {q : EventQueue T C w}

/-- The event is a break point. -/
def isBreakPoint (e : EventStruct T C) : Bool := e.eventType = brkPt

/-- **A run seeks the next break point** on the tape of the events, after whatever has been played.
-/
theorem seek_run (hq : PendingRegistered q) (io : EventStruct T C) (l : List (EventStruct T C)) :
    Tape.seek isBreakPoint ⟨l, q.eventList.values⟩
      = ⟨l ++ (q.run io).popped, (q.run io).queue.eventList.values⟩ := by
  obtain ⟨-, -, hvalues, hend⟩ := run_cases hq io
  rcases hend with ⟨es, e, hes, -, hbrk, hbefore⟩ | ⟨hempty, -, hnone⟩
  · rw [hes, List.append_assoc, List.singleton_append] at hvalues
    rw [hes, Tape.seek_of_first hvalues (by simpa [isBreakPoint] using hbefore)
      (by simpa [isBreakPoint] using hbrk)]
  · rw [hempty, SortedMap.values_empty, List.append_nil] at hvalues
    rw [hempty, Tape.seek_of_none (by simpa [isBreakPoint] using hnone), Tape.whole, hvalues,
      SortedMap.values_empty]

/-- A run leaves the last event that it has popped. -/
lemma event_run (hq : PendingRegistered q) (io : EventStruct T C) :
    (q.run io).event = (q.run io).popped.getLast?.getD io := by
  obtain ⟨-, -, hvalues, hend⟩ := run_cases hq io
  rcases hend with ⟨es, e, hes, he, -⟩ | ⟨hempty, hlast, -⟩
  · rw [he, hes, List.getLast?_concat, Option.getD_some]
  · rw [hempty, SortedMap.values_empty, List.append_nil] at hvalues
    rw [hlast, hvalues]

/-- The queue after so many successive calls of `run`, each on the event that the one before it
left. -/
def EventQueue.afterRuns (q : EventQueue T C w) (io : EventStruct T C) : ℕ → EventQueue T C w
  | 0 => q
  | n + 1 => (q.run io).queue.afterRuns (q.run io).event n

/-- Successive runs are successive seeks. -/
lemma seek_iterate_runs (hq : PendingRegistered q) (io : EventStruct T C) (n : ℕ)
    (l : List (EventStruct T C)) :
    (Tape.seek isBreakPoint)^[n] ⟨l, q.eventList.values⟩
      = ⟨l ++ (q.runs io n).flatMap Call.popped, (q.afterRuns io n).eventList.values⟩ := by
  induction n generalizing q io l with
  | zero => simp [runs, afterRuns]
  | succ n ih =>
      have hreg := (run_cases hq io).2.1
      rw [Function.iterate_succ_apply, seek_run hq io, ih hreg, runs, List.flatMap_cons, afterRuns,
        List.append_assoc]

/-- The calls return. -/
lemma outcome_runs (hq : PendingRegistered q) (io : EventStruct T C) (n : ℕ) :
    ∀ call ∈ q.runs io n, call.outcome = .returned () := by
  induction n generalizing q io with
  | zero => exact List.forall_mem_nil _
  | succ n ih =>
      obtain ⟨hret, hreg, -⟩ := run_cases hq io
      exact List.forall_mem_cons.mpr ⟨hret, ih hreg _⟩

/-- The calls leave the break points in turn, and the last event when there are no more. -/
lemma events_runs (hq : PendingRegistered q) (io : EventStruct T C) (n : ℕ) :
    (q.runs io n).map Call.event
      = (q.eventList.values.filter isBreakPoint ++ List.replicate n (lastEvent q io)).take n := by
  induction n generalizing q io with
  | zero => rfl
  | succ n ih =>
      obtain ⟨-, hreg, hvalues, hend⟩ := run_cases hq io
      have htake : ∀ l : List (EventStruct T C),
          (l ++ List.replicate (n + 1) (lastEvent q io)).take n
            = (l ++ List.replicate n (lastEvent q io)).take n := by
        intro l
        rw [List.take_append, List.take_append, List.take_replicate, List.take_replicate,
          Nat.min_eq_left (by omega), Nat.min_eq_left (by omega)]
      rw [runs, List.map_cons, ih hreg, lastEvent_run hq io]
      rcases hend with ⟨es, e, hes, he, hbrk, hbefore⟩ | ⟨hempty, hlast, hnone⟩
      · have hfilter : q.eventList.values.filter isBreakPoint
            = e :: (q.run io).queue.eventList.values.filter isBreakPoint := by
          have hes' : es.filter isBreakPoint = [] :=
            List.filter_eq_nil_iff.mpr fun e' he' => by simpa [isBreakPoint] using hbefore e' he'
          rw [hvalues, hes, List.filter_append, List.filter_append, hes']
          simp [isBreakPoint, hbrk]
        rw [hfilter, List.cons_append, List.take_succ_cons, htake, he]
      · have hfilter : q.eventList.values.filter isBreakPoint = [] :=
          List.filter_eq_nil_iff.mpr fun e' he' => by simpa [isBreakPoint] using hnone e' he'
        rw [hfilter, hempty, SortedMap.values_empty, List.filter_nil, List.nil_append,
          List.nil_append, List.replicate_succ, List.take_succ_cons, hlast]
        rfl

/-- **What successive runs play.** On a queue whose events all have a registered type `n` successive
calls return, and they play the first events of the queue: up to the `n`-th break point where there
are so many, and otherwise all of them. The calls leave the break points one after the other and,
when there are no more, the last event each time. They have emptied the queue exactly if it was
empty, if it had fewer than `n` break points, or if it had `n` of them and the last event was one.
-/
theorem runs_play (hq : PendingRegistered q) (io : EventStruct T C) (n : ℕ) :
    let es := (q.runs io n).flatMap Call.popped
    let nbOfBreakPoints := q.eventList.values.countP isBreakPoint
    (∀ call ∈ q.runs io n, call.outcome = .returned ()) ∧
      q.eventList.values = es ++ (q.afterRuns io n).eventList.values ∧
      es.countP isBreakPoint = min n nbOfBreakPoints ∧
      (n ≤ nbOfBreakPoints → n ≠ 0 → ∃ e ∈ es.getLast?, isBreakPoint e = true) ∧
      (q.runs io n).map Call.event
        = (q.eventList.values.filter isBreakPoint ++ List.replicate n (lastEvent q io)).take n ∧
      ((q.afterRuns io n).isQueueDone = true ↔ q.eventList.values = [] ∨ nbOfBreakPoints < n ∨
        (nbOfBreakPoints = n ∧ ∃ e ∈ q.eventList.values.getLast?, isBreakPoint e = true)) := by
  intro es nbOfBreakPoints
  have htape := seek_iterate_runs hq io n []
  obtain ⟨hcount, hlast, -⟩ := Tape.seek_iterate isBreakPoint n ⟨[], q.eventList.values⟩
  have hend := Tape.pending_seek_iterate isBreakPoint n ⟨[], q.eventList.values⟩
  have hwhole : ((Tape.seek isBreakPoint)^[n] ⟨[], q.eventList.values⟩).whole
      = q.eventList.values := (Tape.whole_eq_of_le (Tape.le_seek_iterate _ n _)).symm
  rw [htape, List.nil_append] at hcount hlast hend hwhole
  rw [List.countP_nil, Nat.zero_add] at hcount
  refine ⟨outcome_runs hq io n, hwhole.symm, hcount, hlast, events_runs hq io n, ?_⟩
  rw [isQueueDone_eq_true, ← SortedMap.values_eq_nil, hend]

/-- Three runs over two break points, the last of which is the last event: it is left again. -/
theorem runs_play_sample :
    let q := sampleStart.after [.addEvent (sampleEvent .brkPt 1 1),
      .addEvent (sampleEvent .bkgReq 2 2), .addEvent (sampleEvent .brkPt 3 3)]
    (q.runs (sampleEvent .bkgReq 0 0) 3).map Call.event
      = [sampleEvent .brkPt 1 1, sampleEvent .brkPt 3 3, sampleEvent .brkPt 3 3] :=
  (runs_play (Session.pendingRegistered (session_exchanges (show
    sampleStart.Admits Op.Plays [.addEvent (sampleEvent .brkPt 1 1),
      .addEvent (sampleEvent .bkgReq 2 2), .addEvent (sampleEvent .brkPt 3 3)]
    by decide +kernel))) _ _).2.2.2.2.1.trans (by decide +kernel)

/-! ### Break points that are far apart -/

lemma progressStatusMap_addEvents (q : EventQueue T C w) (es : List (EventStruct T C)) :
    (q.addEvents es).1.progressStatusMap = q.progressStatusMap := by
  induction es generalizing q with
  | nil => rfl
  | cons e es ih => rw [addEvents_cons, ih, withEvent]

/-- The events added to an empty queue have registered types. -/
lemma pendingRegistered_addEvents (hq : q.eventList = .empty) {es : List (EventStruct T C)}
    (hreg : ∀ e ∈ es, e.eventType ∈ q.progressStatusMap.keys) :
    PendingRegistered (q.addEvents es).1 := by
  intro p hp
  obtain ⟨ps, hperm, -, hentries⟩ := exists_sorted_addEvents hq es
  rw [hentries, List.mem_map] at hp
  obtain ⟨x, hx, rfl⟩ := hp
  rw [progressStatusMap_addEvents]
  exact hreg x.1 (List.of_mem_zip (hperm.mem_iff.mp hx)).1

/-- The break points among the events added to an empty queue stand in the order of their
date-times, wherever the other events stand. -/
lemma breakPoints_addEvents (hq : q.eventList = .empty) {es bs : List (EventStruct T C)}
    (hbs : bs.Perm (es.filter isBreakPoint))
    (hgap : bs.Pairwise fun b b' : EventStruct T C =>
      b.eventTimeStamp + es.length ≤ b'.eventTimeStamp) :
    ((q.addEvents es).1.eventList.values.filter isBreakPoint).map EventStruct.contents
      = bs.map EventStruct.contents := by
  obtain ⟨ps, hperm, hsorted, hentries⟩ := exists_sorted_addEvents hq es
  have hlate := q.late_addedStamps es
  rw [hq, SortedMap.size_empty, Nat.zero_add] at hlate
  have hfst : (es.zip (q.addedStamps es)).map Prod.fst = es :=
    List.map_fst_zip (q.length_addedStamps es).ge
  have hbreak : (ps.filter fun p => isBreakPoint p.1).map Prod.fst = bs := by
    refine map_fst_eq_of_gap EventStruct.eventTimeStamp (fun p hp => ?_) (hsorted.filter _)
      ?_ hgap
    · exact hlate p (hperm.mem_iff.mp (List.mem_filter.mp hp).1)
    · refine List.Perm.trans ?_ hbs.symm
      have hp := ((hperm.map Prod.fst).trans (List.Perm.of_eq hfst)).filter isBreakPoint
      rwa [List.filter_map] at hp
  calc ((q.addEvents es).1.eventList.values.filter isBreakPoint).map EventStruct.contents
      = ((ps.filter fun p => isBreakPoint p.1).map Prod.fst).map EventStruct.contents := by
        rw [SortedMap.values, hentries, List.map_map, List.filter_map, List.map_map, List.map_map]
        rfl
    _ = bs.map EventStruct.contents := by rw [hbreak]

/-- Runs leave the break points of the queue in turn, as long as there are any. -/
lemma contents_runs (hpending : PendingRegistered q) {bs : List (EventStruct T C)}
    (hcontents : (q.eventList.values.filter isBreakPoint).map EventStruct.contents
      = bs.map EventStruct.contents) (io : EventStruct T C) {n : ℕ} (hn : n ≤ bs.length) :
    (q.runs io n).map (fun call => call.event.contents)
      = (bs.take n).map EventStruct.contents := by
  have hlen := congrArg List.length hcontents
  rw [List.length_map, List.length_map] at hlen
  calc (q.runs io n).map (fun call => call.event.contents)
      = ((q.runs io n).map Call.event).map EventStruct.contents := by
        rw [List.map_map]
        rfl
    _ = ((q.eventList.values.filter isBreakPoint).take n).map EventStruct.contents := by
        rw [events_runs hpending, List.take_append_of_le_length (by omega)]
    _ = (bs.take n).map EventStruct.contents := by
        rw [List.map_take, hcontents, List.map_take]

/-- **Runs find the break points in the order of their date-times**, whatever other events are
added before, between and after them and in whatever order, when there are as many milliseconds
between any two of them as there are events. -/
theorem runs_find_breakPoints (hq : q.eventList = .empty) {es bs : List (EventStruct T C)}
    (hreg : ∀ e ∈ es, e.eventType ∈ q.progressStatusMap.keys)
    (hbs : bs.Perm (es.filter isBreakPoint))
    (hgap : bs.Pairwise fun b b' : EventStruct T C =>
      b.eventTimeStamp + es.length ≤ b'.eventTimeStamp)
    (io : EventStruct T C) {n : ℕ} (hn : n ≤ bs.length) :
    (∀ call ∈ (q.addEvents es).1.runs io n, call.outcome = .returned ()) ∧
      ((q.addEvents es).1.runs io n).map (fun call => call.event.contents)
        = (bs.take n).map EventStruct.contents := by
  have hpending := pendingRegistered_addEvents hq hreg
  exact ⟨outcome_runs hpending io n,
    contents_runs hpending (breakPoints_addEvents hq hbs hgap) io hn⟩

/-- Break points of the tenth and the third millisecond, after booking requests of the third. -/
theorem runs_find_breakPoints_sample :
    let es := [sampleEvent .bkgReq 2 1, sampleEvent .brkPt 9 2, sampleEvent .bkgReq 2 3,
      sampleEvent .brkPt 2 4]
    (∀ call ∈ (sampleStart.addEvents es).1.runs (sampleEvent .bkgReq 0 0) 2,
        call.outcome = .returned ()) ∧
      ((sampleStart.addEvents es).1.runs (sampleEvent .bkgReq 0 0) 2).map
          (fun call => call.event.contents)
        = [(sampleEvent .brkPt 2 4).contents, (sampleEvent .brkPt 9 2).contents] :=
  runs_find_breakPoints rfl (by decide)
    (show [sampleEvent .brkPt 2 4, sampleEvent .brkPt 9 2].Perm _ from List.Perm.swap _ _ _)
    (by decide) _ le_rfl

end Sevmgr
