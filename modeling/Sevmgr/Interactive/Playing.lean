import Sevmgr.Interactive.Asked
import Sevmgr.Library.Tape
import Sevmgr.Sessions.Clock
import Sevmgr.Sessions.Lookup
import Sevmgr.Sessions.ManagerPop
import Sevmgr.Sessions.Pops
import Sevmgr.Sessions.Runs

/-!
A console as a player of the events of its queue.

What the commands do to the queue and to the current event is what they do to a tape of the events:
`NEXT` winds it over one event, `RUN` seeks the next break point, and `SELECT` finds the event of
the date-time asked for.

* `Playable`: a queue without shifted stamps whose events have date-times of the calendar.
* `AtTape`: the console has played a first part of the events of a queue, and its current event is
  the last one of that part. By `AtTape.unique` the part determines the console.
* `moveOf`, `turn_spec`: the move of the tape that stands for a line, and the round of the loop as
  that move.
-/

namespace Sevmgr

open EventQueue Terminal

variable {T C : Type} [Stdair T] {w : ℕ} {q q' : EventQueue T C w} {c c' : Console T C w}
  {t t' : Tape (EventStruct T C)} {es : List (EventStruct T C)}

/-! ### Queues without shifted stamps -/

/-- A queue without shifted stamps is left without shifted stamps. -/
lemma Pops.unshifted (hq : Unshifted q) (h : Pops q es q') : Unshifted q' where
  registered := (h.happensIf (G := fun q op => op.Registered q)).invariant
    (fun _ _ _ hs hx => hs.step hx.1 hx.2) hq.registered
  stamps := h.invariant (fun _ _ _ hs hx => hs.step hx) hq.stamps
  onTime e he := hq.onTime e (by rw [h.values]; exact List.mem_append_right _ he)

/-- The events of such a queue come in the order of their date-times, no two at the same. -/
lemma Unshifted.pairwise_eventTime (hq : Unshifted q) :
    q.eventList.values.Pairwise fun e e' => e.eventTime < e'.eventTime := by
  have hsorted : q.eventList.keys.Pairwise (· < ·) := q.eventList.sorted
  rw [← hq.stamps.stamps_values, List.pairwise_map] at hsorted
  refine hsorted.imp_of_mem fun {e e'} he he' hlt => ?_
  have h := hq.onTime e he
  have h' := hq.onTime e' he'
  rw [OnTime] at h h'
  linarith

/-! ### Consoles on a tape -/

/-- A queue without shifted stamps, whose events and whose oldest date-time are those of a calendar
in milliseconds. -/
structure Playable (q : EventQueue T C w) : Prop extends Unshifted q where
  oldest : (1000 : ℤ) ∣ defaultEventOldestDateTime T
  dated : ∀ e ∈ q.eventList.values, ∃ p : PTime, p.dateTime = e.eventTime

/-- The console has played the first part of the events of `q`, up to its current event. -/
structure AtTape (q : EventQueue T C w) (t : Tape (EventStruct T C)) (c : Console T C w) :
    Prop where
  pops : Pops q t.played c.queue
  whole : t.whole = q.eventList.values
  current : t.current = some c.event

/-- **The place on the tape determines the console.** -/
theorem AtTape.unique (h : AtTape q t c) (h' : AtTape q t c') : c = c' := by
  obtain ⟨queue, event⟩ := c
  obtain ⟨queue', event'⟩ := c'
  obtain rfl : queue = queue' := h.pops.unique h'.pops
  obtain rfl : event = event' := Option.some.inj (h.current.symm.trans h'.current)
  rfl

/-- The events to come are those of the queue. -/
lemma AtTape.values (h : AtTape q t c) : c.queue.eventList.values = t.pending :=
  (List.append_cancel_left (h.whole.trans h.pops.values)).symm

lemma AtTape.current_mem (h : AtTape q t c) : c.event ∈ q.eventList.values := by
  rw [← h.whole]
  exact List.mem_append_left _ (List.mem_of_getLast? h.current)

/-- The first of the events to come is popped. -/
lemma popEvent_of_values_cons (hq : PendingRegistered q) {e : EventStruct T C}
    (hvalues : q.eventList.values = e :: es) (io : EventStruct T C) :
    ∃ k s, q.eventList.first? = some (k, e) ∧
      q.popEvent io = ⟨.returned s, q.played k e, e, [e]⟩ := by
  have hne : q.eventList ≠ .empty := fun hempty => by
    rw [hempty, SortedMap.values_empty] at hvalues
    exact absurd hvalues (by simp)
  obtain ⟨k, e', s, hfirst, hpop⟩ := popEvent_of_pendingRegistered hq hne io
  obtain rfl : e' = e := by
    rw [SortedMap.values_eq_cons_of_first? hfirst] at hvalues
    exact (List.cons.inj hvalues).1
  exact ⟨k, s, hfirst, hpop⟩

/-- The console after the first event has been popped. -/
lemma AtTape.start (hq : PendingRegistered q) {e : EventStruct T C}
    (hvalues : q.eventList.values = e :: es) (io : EventStruct T C) :
    AtTape q ⟨[e], es⟩ ⟨(q.managerPopEvent io).queue, (q.managerPopEvent io).event⟩ := by
  obtain ⟨k, s, hfirst, hpop⟩ := popEvent_of_values_cons hq hvalues io
  rw [managerPopEvent, hpop]
  exact ⟨.single (.popped hfirst), hvalues.symm, rfl⟩

/-- The console after more pops. -/
lemma AtTape.append (h : AtTape q t c) {rest : List (EventStruct T C)} {e : EventStruct T C}
    (hsplit : t.pending = es ++ rest) (hpops : Pops c.queue es q')
    (hlast : (t.played ++ es).getLast? = some e) :
    AtTape q ⟨t.played ++ es, rest⟩ ⟨q', e⟩ where
  pops := by
    rw [Pops, List.map_append]
    exact Run.append h.pops hpops
  whole := by
    rw [← h.whole, Tape.whole, Tape.whole, hsplit, List.append_assoc]
  current := hlast

/-! ### The moves of the commands -/

/-- The move of the command `SELECT`: nothing is found where the reader ends the program, and
nothing is wound over for the oldest date-time. -/
def selectMove (M : Terminal T C) (io : EventStruct T C) (toks : List Text)
    (t : Tape (EventStruct T C)) : Tape (EventStruct T C) :=
  let d := lUserDateTime M.toBoost toks (M.ptimeOf io.eventTime)
  match (selectReading M.toBoost toks (M.ptimeOf io.eventTime)).exit with
  | .returned _ =>
      if d = defaultEventOldestDateTime T then t else t.find fun e => e.eventTime = d
  | _ => t

/-- The move that stands for a line, at the current event `io`. -/
def moveOf (M : Terminal T C) (io : EventStruct T C) (l : Line) (t : Tape (EventStruct T C)) :
    Tape (EventStruct T C) :=
  match (extractCommand l.lTokenListByReadline).1 with
  | .next => t.next
  | .run => t.seek fun e => e.eventType = brkPt
  | .select => selectMove M io (extractCommand l.lTokenListByReadline).2 t
  | _ => t

/-- The program is not ended by an exception of the queue or a failed assertion. -/
def Ending.Sound : Ending T → Prop
  | .queue _ | .aborted => False
  | _ => True

/-- The round leaves the console at the place `t'` and does not end the program unsoundly. -/
structure Turn.Plays (r : Turn T C w) (q : EventQueue T C w) (t' : Tape (EventStruct T C)) :
    Prop where
  atTape : AtTape q t' r.console
  sound : ∀ x ∈ r.ending, x.Sound

/-- A round without an effect on the console. -/
lemma AtTape.stays (h : AtTape q t c) {outputs : List Output} {ending : Option (Ending T)}
    (hsound : ∀ x ∈ ending, x.Sound) : Turn.Plays ⟨outputs, c, ending⟩ q t := ⟨h, hsound⟩

variable (M : Terminal T C)

/-- What the command `RUN` writes when it leaves the event. -/
def Terminal.runReport (e : EventStruct T C) : List Output :=
  [endl "Run", endl (if e.eventType = brkPt then
    "Break point found. Stop at: '" ++ M.describe e ++ "'."
  else "No break point found. All the events have been played.\n"
    ++ "The current event is the last one.")]

/-- `NEXT` when no event is left. -/
lemma nextTurn_of_nil (h : AtTape q t c) (hnil : t.pending = []) :
    M.nextTurn c = ⟨[endl "Next", endl "The event queue is empty: no event can be popped out."], c,
      none⟩ := by
  have hempty : c.queue.isQueueDone = true :=
    isQueueDone_eq_true.mpr (SortedMap.values_eq_nil.mp (h.values.trans hnil))
  rw [Terminal.nextTurn, if_pos hempty]

/-- `NEXT` when an event is to come. -/
lemma nextTurn_of_cons (hq : Playable q) (h : AtTape q t c) {e : EventStruct T C}
    (hcons : t.pending = e :: es) : ∃ k, c.queue.eventList.first? = some (k, e) ∧ M.nextTurn c
      = ⟨[endl "Next", endl ("Poped event: '" ++ M.describe e ++ "'.")], ⟨c.queue.played k e, e⟩,
        none⟩ := by
  have hvalues := h.values.trans hcons
  obtain ⟨k, s, hfirst, hpop⟩ := popEvent_of_values_cons
    (h.pops.unshifted hq.toUnshifted).registered hvalues c.event
  have hdone : ¬ c.queue.isQueueDone = true := fun hdone => by
    rw [isQueueDone_eq_true.mp hdone, SortedMap.values_empty] at hvalues
    exact absurd hvalues (by simp)
  refine ⟨k, hfirst, ?_⟩
  rw [Terminal.nextTurn, if_neg hdone, caughtOutputs, managerPopEvent, hpop]
  rfl

/-- `NEXT` winds over one event, or over none when none is left. -/
lemma AtTape.nextTurn (hq : Playable q) (h : AtTape q t c) :
    (M.nextTurn c).Plays q t.next := by
  cases hpending : t.pending with
  | nil =>
      have hsame : t.next = t := by
        rw [Tape.next, Tape.wind, hpending]
        simp [Tape.ext_iff, hpending]
      rw [nextTurn_of_nil M h hpending, hsame]
      exact h.stays (by simp)
  | cons e es =>
      obtain ⟨k, hfirst, hnext⟩ := nextTurn_of_cons M hq h hpending
      rw [hnext, Tape.next_cons hpending]
      exact ⟨h.append hpending (.single (.popped hfirst)) (by simp), by simp⟩

/-- The round of `RUN` on a queue whose events all have a registered type. -/
lemma runTurn_eq (hq : PendingRegistered c.queue) : M.runTurn c
    = ⟨M.runReport (c.queue.run c.event).event,
      ⟨(c.queue.run c.event).queue, (c.queue.run c.event).event⟩, none⟩ := by
  obtain ⟨hret, -⟩ := run_cases hq c.event
  rw [Terminal.runTurn, hret, runReport]
  split_ifs <;> rfl

/-- `RUN` seeks the next break point. -/
lemma AtTape.runTurn (hq : Playable q) (h : AtTape q t c) :
    (M.runTurn c).Plays q (t.seek fun e => e.eventType = brkPt) := by
  have hreg := (h.pops.unshifted hq.toUnshifted).registered
  have hseek := seek_run hreg c.event t.played
  have hpops : Pops c.queue (c.queue.run c.event).popped (c.queue.run c.event).queue :=
    .of_happensIf (run_happens_play (G := fun _ _ => True) _ _ _ c.queue c.event)
  rw [h.values] at hseek
  rw [runTurn_eq M hreg]
  refine ⟨?_, by simp⟩
  show AtTape q (Tape.seek isBreakPoint ⟨t.played, t.pending⟩) _
  rw [hseek]
  refine h.append (h.values.symm.trans hpops.values) hpops ?_
  rw [List.getLast?_append, show t.played.getLast? = some c.event from h.current,
    event_run hreg c.event]
  cases (c.queue.run c.event).popped.getLast? <;> rfl

/-- `SELECT` finds the event of the date-time asked for, unless that is the oldest one. -/
lemma AtTape.select (hq : Playable q) (h : AtTape q t c) {d : DateTime} (hd : (1000 : ℤ) ∣ d) :
    AtTape q (if d = defaultEventOldestDateTime T then t else t.find fun e => e.eventTime = d)
        ⟨(c.queue.select c.event d).queue, (c.queue.select c.event d).event⟩ ∧
      (c.queue.select c.event d).outcome
        = .returned (decide (∃ e ∈ t.pending, e.eventTime = d)) := by
  have hunshifted := h.pops.unshifted hq.toUnshifted
  obtain ⟨m, hm⟩ : ∃ m, d = defaultEventOldestDateTime T + 1000 * m := by
    obtain ⟨m, hm⟩ := dvd_sub hd hq.oldest
    exact ⟨m, eq_add_of_sub_eq' hm⟩
  have hkeys := hunshifted.mem_keys_iff m
  rw [← hm, h.values] at hkeys
  by_cases hpending : ∃ e ∈ t.pending, e.eventTime = d
  · have hstamp := hkeys.mpr hpending
    by_cases hold : d = defaultEventOldestDateTime T
    · subst hold
      rw [select_oldest hstamp, if_pos rfl, decide_eq_true hpending]
      exact ⟨h, rfl⟩
    · obtain ⟨es, e, hret, hevent, -, htime, hbefore, hvalues⟩ := select_of_pending
        hunshifted.registered hstamp hold (by rwa [h.values]) c.event
      have hpops : Pops c.queue (c.queue.select c.event d).popped
          (c.queue.select c.event d).queue :=
        .of_happensIf (run_happens_select (G := fun _ _ => True) c.queue c.event d)
      have hpopped : (c.queue.select c.event d).popped = es ++ [e] := by
        have hsplit := hpops.values.symm.trans hvalues
        rw [← List.singleton_append, ← List.append_assoc] at hsplit
        exact List.append_cancel_right hsplit
      rw [h.values] at hvalues
      rw [hpopped] at hpops
      rw [if_neg hold, Tape.find_of_first hvalues (by simpa using hbefore) (by simpa using htime),
        hevent, hret, decide_eq_true hpending]
      refine ⟨h.append ?_ hpops (by simp), rfl⟩
      rw [hvalues, List.append_assoc, List.singleton_append]
  · have hmissing := mt hkeys.mp hpending
    rw [select_of_missing hmissing, decide_eq_false hpending]
    refine ⟨?_, rfl⟩
    split_ifs
    · exact h
    · rw [Tape.find_of_none (by simpa using hpending)]
      exact h

/-- The date-time that `SELECT` asks for at the console is one of whole milliseconds. -/
lemma AtTape.dvd_asked (hq : Playable q) (h : AtTape q t c) (toks : List Text) :
    (1000 : ℤ) ∣ lUserDateTime M.toBoost toks (M.ptimeOf c.event.eventTime) := by
  obtain ⟨p, hp⟩ := hq.dated _ h.current_mem
  have htime := hq.onTime _ h.current_mem
  rw [← hp, M.ptimeOf_dateTime]
  refine dvd_lUserDateTime (dvd_timeOfDay ?_)
  rw [hp, htime]
  exact dvd_add hq.oldest (Dvd.intro _ rfl)

lemma AtTape.selectTurn (hq : Playable q) (h : AtTape q t c) (toks : List Text) :
    (M.selectTurn c toks).Plays q (selectMove M c.event toks t) := by
  obtain ⟨hat, hret⟩ := h.select hq (h.dvd_asked M hq toks)
  rw [Terminal.selectTurn, selectMove]
  cases (selectReading M.toBoost toks (M.ptimeOf c.event.eventTime)).exit with
  | raised x => exact h.stays (by simp [Ending.Sound])
  | outOfRange => exact h.stays (by simp [Ending.Sound])
  | returned complaint =>
      simp only [hret]
      exact ⟨hat, by simp⟩

/-- **A round of the loop is a move of the tape.** -/
theorem AtTape.turn (hq : Playable q) (h : AtTape q t c) (l : Line) :
    (M.turn c l).Plays q (moveOf M c.event l t) := by
  rw [Terminal.turn, moveOf]
  cases (extractCommand l.lTokenListByReadline).1 with
  | next => exact h.nextTurn M hq
  | run => exact h.runTurn M hq
  | select => exact h.selectTurn M hq _
  | jsonList =>
      rw [Terminal.jsonListTurn]
      cases c.queue.jsonExportEventQueue M.toShowing none with
      | none => exact h.stays (by simp [Ending.Sound])
      | some s => exact h.stays (by simp)
  | quit => exact h.stays (by simp [Ending.Sound])
  | nop => exact h.stays (by simp)
  | help => exact h.stays (by simp)
  | list => exact h.stays (by simp)
  | display => exact h.stays (by simp)
  | jsonDisplay => exact h.stays (by simp)
  | lastValue => exact h.stays (by simp)

/-- No line winds the tape back. -/
lemma le_moveOf (io : EventStruct T C) (l : Line) (t : Tape (EventStruct T C)) :
    t ≤ moveOf M io l t := by
  rw [moveOf]
  cases (extractCommand l.lTokenListByReadline).1 with
  | next => exact t.le_next
  | run => exact t.le_seek _
  | select =>
      simp only [selectMove]
      cases (selectReading M.toBoost _ (M.ptimeOf io.eventTime)).exit with
      | raised x => exact le_rfl
      | outOfRange => exact le_rfl
      | returned complaint =>
          split_ifs
          · exact le_rfl
          · exact t.le_find _
  | quit | nop | help | list | display | jsonList | jsonDisplay | lastValue => exact le_rfl

end Sevmgr
