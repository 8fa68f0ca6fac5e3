import Sevmgr.Interactive.Transcripts

/-!
The interactive program as the player of a tape.

* `Recording`: what the player knows of a queue beside the list of its events, which is its name and
  the numbers shown of it. The player has no time stamps and no statuses of the types.
* `writtenAt`, `endingAt`: what the player writes for a line at a place of the tape, and whether it
  ends the session there. Where it winds the tape to is `moveOf`.
* `play`: the session of the player.
* `interact_refines`: the program writes what the player writes, ends as the player does, and leaves
  its console at the place where the player leaves the tape.
-/

namespace Sevmgr

open EventQueue Terminal

variable {T C : Type} [Stdair T] {w : ℕ} {q q' : EventQueue T C w} {c : Console T C w}
  {t : Tape (EventStruct T C)} {es : List (EventStruct T C)}

/-! ### The player -/

/-- What is known of a queue: its name, and the numbers that are shown of it. -/
structure Recording where
  name : String
  display : QueueDisplay

/-- The recording of the events of a queue. -/
def EventQueue.recording (q : EventQueue T C w) : Recording := ⟨q.describeKey, q.display⟩

/-- The lines above the events at a place of the tape. -/
def Recording.header {α : Type} (R : Recording) (t : Tape α) : String :=
  R.name ++ "\n" ++ { R.display with
    size := t.pending.length
    currentNb := R.display.currentNb + t.played.length : QueueDisplay }.toString ++ "\n"

namespace Terminal

variable (M : Terminal T C)

/-- What the command `LIST` shows at a place of the tape. -/
def listingAt (R : Recording) (t : Tape (EventStruct T C)) : List Text → String
  | [] => R.header t ++ describeAll M.toShowing t.pending
  | [tok] =>
      match M.eventTypeOfString (String.ofList tok) with
      | some iType => R.header t ++ ("List " ++ getLabel iType ++ " events:\n")
          ++ describeAll M.toShowing (ofType iType t.pending)
      | none => "The event type '" ++ String.ofList tok
          ++ "' is not known. Try 'help' for more information on the 'list_event' command.\n"
  | _ => "The event type is not understood: try 'help' for more information on the 'list_event' "
      ++ "command.\n"

/-- What the command `NEXT` writes at a place of the tape. -/
def nextAt (t : Tape (EventStruct T C)) : List Output :=
  match t.pending with
  | [] => [endl "Next", endl "The event queue is empty: no event can be popped out."]
  | e :: _ => [endl "Next", endl ("Poped event: '" ++ M.describe e ++ "'.")]

/-- What the command `SELECT` writes at a place of the tape. -/
def selectAt (io : EventStruct T C) (t : Tape (EventStruct T C)) (toks : List Text) :
    List Output :=
  let now := M.ptimeOf io.eventTime
  match (selectReading M.toBoost toks now).exit with
  | .returned complaint => M.selectOutputs (selectReading M.toBoost toks now) complaint
      ++ [endl ("Selection successful: "
        ++ if ∃ e ∈ t.pending, e.eventTime = lUserDateTime M.toBoost toks now then "1" else "0")]
  | _ => []

/-- What the command `JSON_LIST` writes at a place of the tape. -/
def jsonListAt (t : Tape (EventStruct T C)) : List Output :=
  if ∃ e ∈ t.pending, Malformed M.toShowing e then [endl "JSON List"]
  else [endl "JSON List", endl (eventsDocument M.toShowing none t.pending)]

/-- What is written for a line at the event `io` and a place of the tape. -/
def writtenAt (R : Recording) (io : EventStruct T C) (t : Tape (EventStruct T C)) (l : Line) :
    List Output :=
  let toks := (extractCommand l.lTokenListByReadline).2
  match (extractCommand l.lTokenListByReadline).1 with
  | .help => [.out helpText]
  | .list => [endl (M.listingAt R t toks)]
  | .select => M.selectAt io t toks
  | .display => [endl "Display", endl (M.describe io)]
  | .next => M.nextAt t
  | .run => M.runReport ((t.seek isBreakPoint).current.getD io)
  | .jsonList => M.jsonListAt t
  | .jsonDisplay => [endl "JSON Display", endl (M.jsonExportEventObject io)]
  | .quit | .nop => []
  | .lastValue => unknownOutputs l.lUserInput toks

/-- How a line ends the session, if it does, at the event `io` and a place of the tape. -/
def endingAt (io : EventStruct T C) (t : Tape (EventStruct T C)) (l : Line) : Option (Ending T) :=
  match (extractCommand l.lTokenListByReadline).1 with
  | .quit => some .quit
  | .select =>
      match (selectReading M.toBoost (extractCommand l.lTokenListByReadline).2
        (M.ptimeOf io.eventTime)).exit with
      | .raised x => some (.boost x)
      | .outOfRange => some .outOfRange
      | .returned _ => none
  | .jsonList => if ∃ e ∈ t.pending, Malformed M.toShowing e then some .json else none
  | _ => none

/-- What the player writes, where it leaves the tape and how it ends. -/
structure Performance (T C : Type) where
  outputs : List Output
  place : Tape (EventStruct T C)
  ending : Ending T

/-- The session of the player, from the event `io` and a place of the tape. -/
def play (R : Recording) (io : EventStruct T C) (t : Tape (EventStruct T C)) :
    List Line → Performance T C
  | [] => ⟨[M.promptOf io, endl "", farewell], t, .endOfInput⟩
  | l :: ls =>
      let t' := moveOf M io l t
      match M.endingAt io t l with
      | none =>
          let r := play R (t'.current.getD io) t' ls
          ⟨M.promptOf io :: M.writtenAt R io t l ++ r.outputs, r.place, r.ending⟩
      | some .quit => ⟨M.promptOf io :: M.writtenAt R io t l ++ [farewell], t', .quit⟩
      | some x => ⟨M.promptOf io :: M.writtenAt R io t l, t', x⟩

end Terminal

/-! ### The rounds -/

/-- A queue keeps its name while events are popped. -/
lemma Pops.key (h : Pops q es q') : q'.key = q.key := by
  induction es generalizing q with
  | nil =>
      cases h
      rfl
  | cons e es ih =>
      cases h with
      | cons hstep hrest =>
          cases hstep
          exact (ih hrest).trans rfl

/-- The console shows above a listing what the player shows. -/
lemma AtTape.header (h : AtTape q t c) : c.queue.header = q.recording.header t := by
  have hremoved := removed_of_pops (G := fun _ _ => True) h.pops.happensIf
  have hdisplay : c.queue.display = { q.display with
      size := t.pending.length
      currentNb := q.display.currentNb + t.played.length : QueueDisplay } := by
    rw [display, hremoved.overall, ← h.values, SortedMap.length_values]
    rfl
  rw [EventQueue.header, Recording.header, hdisplay, describeKey, h.pops.key]
  rfl

variable (M : Terminal T C)

lemma AtTape.listing (h : AtTape q t c) (toks : List Text) :
    M.listing c.queue toks = M.listingAt q.recording t toks := by
  rcases toks with _ | ⟨tok, _ | ⟨tok', toks⟩⟩
  · rw [Terminal.listing, listingAt, list_eq, h.header, h.values]
  · rw [Terminal.listing, listingAt]
    cases M.eventTypeOfString (String.ofList tok) with
    | none => rfl
    | some iType => simp only [listOfType_eq, h.header, h.values]
  · rfl

lemma AtTape.next_written (hq : Playable q) (h : AtTape q t c) :
    (M.nextTurn c).outputs = M.nextAt t ∧ (M.nextTurn c).ending = none := by
  rw [nextAt]
  cases hpending : t.pending with
  | nil =>
      rw [nextTurn_of_nil M h hpending]
      exact ⟨rfl, rfl⟩
  | cons e es =>
      obtain ⟨k, -, hnext⟩ := nextTurn_of_cons M hq h hpending
      rw [hnext]
      exact ⟨rfl, rfl⟩

lemma AtTape.run_written (hq : Playable q) (h : AtTape q t c) :
    (M.runTurn c).outputs = M.runReport ((t.seek isBreakPoint).current.getD c.event) ∧
      (M.runTurn c).ending = none := by
  have hround := runTurn_eq M (h.pops.unshifted hq.toUnshifted).registered
  have hcurrent : (t.seek isBreakPoint).current = some (M.runTurn c).console.event :=
    (h.runTurn M hq).atTape.current
  rw [hcurrent, hround]
  exact ⟨rfl, rfl⟩

lemma AtTape.jsonList_written (h : AtTape q t c) : (M.jsonListTurn c).outputs = M.jsonListAt t ∧
    (M.jsonListTurn c).ending
      = if ∃ e ∈ t.pending, Malformed M.toShowing e then some .json else none := by
  have hshows : ∀ e : EventStruct T C, Shows none e := fun _ => Or.inr rfl
  rw [jsonListTurn, jsonListAt, ← h.values]
  by_cases hbad : ∃ e ∈ c.queue.eventList.values, Malformed M.toShowing e
  · have hnone : c.queue.jsonExportEventQueue M.toShowing none = none := by
      rw [jsonExportEventQueue_eq_none]
      simpa only [hshows, true_and] using hbad
    rw [hnone, if_pos hbad, if_pos hbad]
    exact ⟨rfl, rfl⟩
  · have hsome := jsonExportEventQueue_eq (f := none) M.toShowing (q := c.queue)
      fun e he _ hmal => hbad ⟨e, he, hmal⟩
    rw [hsome, if_neg hbad, if_neg hbad]
    exact ⟨rfl, rfl⟩

lemma AtTape.select_written (hq : Playable q) (h : AtTape q t c) (toks : List Text) :
    (M.selectTurn c toks).outputs = M.selectAt c.event t toks ∧
      (M.selectTurn c toks).ending
        = match (selectReading M.toBoost toks (M.ptimeOf c.event.eventTime)).exit with
          | .raised x => some (.boost x)
          | .outOfRange => some .outOfRange
          | .returned _ => none := by
  obtain ⟨-, hret⟩ := h.select hq (h.dvd_asked M hq toks)
  rw [Terminal.selectTurn, selectAt]
  cases (selectReading M.toBoost toks (M.ptimeOf c.event.eventTime)).exit with
  | raised x => exact ⟨rfl, rfl⟩
  | outOfRange => exact ⟨rfl, rfl⟩
  | returned complaint =>
      simp only [hret, decide_eq_true_eq, and_self]

/-- **A round of the loop is one of the player.** -/
theorem AtTape.turn_written (hq : Playable q) (h : AtTape q t c) (l : Line) :
    (M.turn c l).outputs = M.writtenAt q.recording c.event t l ∧
      (M.turn c l).ending = M.endingAt c.event t l := by
  rw [Terminal.turn, writtenAt, endingAt]
  cases (extractCommand l.lTokenListByReadline).1 with
  | next => exact h.next_written M hq
  | run => exact h.run_written M hq
  | select => exact h.select_written M hq _
  | jsonList => exact h.jsonList_written M
  | list => exact ⟨by simp only [h.listing M], rfl⟩
  | help | quit | display | jsonDisplay | nop | lastValue => exact ⟨rfl, rfl⟩

/-! ### The session -/

/-- **The program refines the player.** From a console at a place on the tape of the events of a
playable queue, whatever lines are typed, the program writes what the player writes and ends as the
player does, and the console is left at the place where the player leaves the tape. -/
theorem interact_refines (hq : Playable q) (h : AtTape q t c) (ls : List Line) :
    let p := M.play q.recording c.event t ls
    (M.interact c ls).outputs = p.outputs ∧ (M.interact c ls).ending = p.ending ∧
      AtTape q p.place (M.interact c ls).console := by
  intro p
  induction ls generalizing t c with
  | nil => exact ⟨rfl, rfl, h⟩
  | cons l ls ih =>
      obtain ⟨houtputs, hending⟩ := h.turn_written M hq l
      have hat := (h.turn M hq l).atTape
      have hevent : (moveOf M c.event l t).current.getD c.event = (M.turn c l).console.event := by
        rw [hat.current, Option.getD_some]
      simp only [p, Terminal.play, ← hending, ← houtputs, hevent]
      cases hend : (M.turn c l).ending with
      | none =>
          obtain ⟨houtputs', hending', hat'⟩ := ih hat
          rw [interact_of_none hend, houtputs', hending']
          exact ⟨rfl, rfl, hat'⟩
      | some x =>
          obtain ⟨hconsole, hending', -⟩ := interact_of_some hend ls
          rw [hconsole, hending', interact, hend]
          cases x <;> exact ⟨rfl, rfl, hat⟩

/-- The events of the calendar: they are listed, one is played, a line that is no date-time selects
nothing, the second break point is selected by its own, and the rest is run through. -/
theorem interact_refines_sample :
    let ls : List Line := [⟨"json_list", ["json_list".toList]⟩, ⟨"next", ["next".toList]⟩,
      ⟨"select today", ["select".toList, "today".toList]⟩,
      ⟨"select 2011-May-14 00:00:00", ["select".toList, "2011-May-14".toList, "00:00:00".toList]⟩,
      ⟨"List BreakPoint", ["List".toList, "BreakPoint".toList]⟩, ⟨"run", ["run".toList]⟩,
      ⟨"quit", ["quit".toList]⟩]
    let p := sampleTerminal.play Calendar.queue.recording Calendar.console.event
      ⟨[Calendar.breakPoint1],
        [Calendar.requestForCRS, Calendar.breakPoint2, Calendar.request]⟩ ls
    (sampleTerminal.interact Calendar.console ls).outputs = p.outputs ∧
      (sampleTerminal.interact Calendar.console ls).ending = p.ending ∧
      AtTape Calendar.queue p.place (sampleTerminal.interact Calendar.console ls).console :=
  interact_refines sampleTerminal Calendar.playable_queue Calendar.atTape_console _

end Sevmgr
