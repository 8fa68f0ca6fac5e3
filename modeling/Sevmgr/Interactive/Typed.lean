import Sevmgr.Interactive.Transcripts
import Sevmgr.Reader.RoundTrip

/-!
Selecting an event by typing its date-time.

* `selectReading_writing`: what is read of a date-time written out in full.
* `Line.Asks`: a line that is the command `SELECT` with such a date-time after it.
* `select_from_anywhere`: at any point of a session it makes the event of the date-time the current
  one, and what was typed before makes no difference.
-/

namespace Sevmgr

open DateTimeReader EventQueue Terminal

variable {T C : Type} [Stdair T] {w : ℕ} {q : EventQueue T C w} {c : Console T C w}
  {t t' : Tape (EventStruct T C)}

/-- A date and a time of day are read back from every writing of them, whatever the current
date-time. -/
lemma selectReading_writing (B : Boost) {date : Date} (text : Writing date) (time : TimeOfDay)
    (now : PTime) : selectReading B (splitOnBlanks (text.text time)) now
      = ⟨.returned none, date, time.duration⟩ := by
  have hyear := typedYear_writing now.date date
  have hday := typedOr_padded now.date.day
    (show date.day < 100 from lt_of_le_of_lt (date.valid.2.2.2.trans (endOfMonthDay_le _ _))
      (by decide))
  have hdate : IsDate (typedYear now.date (padded 4 date.year)) date.month
      (typedOr now.date.day (padded 2 date.day)) := by
    rw [hyear, hday]
    exact date.valid
  rw [selectReading_of_month (extract_writing text time) (dateTimeTokens_writing text time)
    (typedMonth_writing now.date text) hdate (isDigits_padded 1 (by decide)).not_isWord,
    typedTime_writing]
  congr 1
  exact Date.ext hyear rfl hday

/-- The line is the command `SELECT`, in letters of any case, with a writing of the date and the
time of day after it. -/
def Line.Asks (l : Line) (date : Date) (time : TimeOfDay) : Prop :=
  ∃ text : Writing date,
    extractCommand l.lTokenListByReadline = (.select, splitOnBlanks (text.text time))

/-- What the command writes on success. -/
def selectedOutputs (M : Terminal T C) (date : Date) (time : TimeOfDay) : List Output :=
  [endl ("Try to select event: " ++ String.ofList (M.showDate date) ++ " "
    ++ String.ofList (M.showDuration time.duration)), endl "Selection successful: 1"]

/-- The round of such a line at a console with the event to come. -/
lemma turn_of_asks (hq : Playable q) (h : AtTape q t c) (M : Terminal T C) {l : Line} {date : Date}
    {time : TimeOfDay} (hl : l.Asks date time) {e : EventStruct T C} (he : e ∈ t.pending)
    (htime : e.eventTime = ptime date time.duration)
    (hold : e.eventTime ≠ defaultEventOldestDateTime T) :
    (M.turn c l).outputs = selectedOutputs M date time ∧ (M.turn c l).ending = none ∧
      AtTape q (t.find fun e' => e'.eventTime = e.eventTime) (M.turn c l).console := by
  obtain ⟨text, hl⟩ := hl
  have hread := selectReading_writing M.toBoost text time (M.ptimeOf c.event.eventTime)
  have hasked : lUserDateTime M.toBoost (splitOnBlanks (text.text time))
      (M.ptimeOf c.event.eventTime) = e.eventTime := by
    rw [lUserDateTime, hread, htime]
  have hselect := h.select hq (hasked ▸ h.dvd_asked M hq _)
  rw [if_neg hold, decide_eq_true ⟨e, he, rfl⟩] at hselect
  have hturn : M.turn c l = ⟨selectedOutputs M date time,
      ⟨(c.queue.select c.event e.eventTime).queue, (c.queue.select c.event e.eventTime).event⟩,
      none⟩ := by
    rw [Terminal.turn, hl]
    simp only [Terminal.selectTurn, hread, hasked, hselect.2, selectOutputs]
    rfl
  rw [hturn]
  exact ⟨rfl, rfl, hselect.1⟩

/-- **An event is selected from anywhere.** At any point of a session of any lines, typing the
date-time of an event that is still to come, in any `Writing` of it, makes it the current event,
unless that is the oldest date-time, for which nothing is played. The session then goes on as if
nothing had been typed before: from the same console, with the same output, to the same end. -/
theorem select_from_anywhere (hq : Playable q) (h : AtTape q t c) (M : Terminal T C)
    {ls : List Line} (hlives : (M.interact c ls).ending = .endOfInput) {l : Line} {date : Date}
    {time : TimeOfDay} (hl : l.Asks date time) {e : EventStruct T C}
    (he : e ∈ (M.interact c ls).console.queue.eventList.values)
    (htime : e.eventTime = ptime date time.duration)
    (hold : e.eventTime ≠ defaultEventOldestDateTime T) (rest : List Line) :
    ∃ c' os, c'.event = e ∧
      (∃ es, c.queue.eventList.values = es ++ e :: c'.queue.eventList.values) ∧
      M.interact c (l :: rest) = ⟨M.promptOf c.event :: selectedOutputs M date time
          ++ (M.interact c' rest).outputs,
        (M.interact c' rest).console, (M.interact c' rest).ending⟩ ∧
      M.interact c (ls ++ l :: rest)
        = ⟨os ++ selectedOutputs M date time ++ (M.interact c' rest).outputs,
          (M.interact c' rest).console, (M.interact c' rest).ending⟩ := by
  obtain ⟨-, t', hle, hat, -⟩ := interact_plays hq h M ls
  obtain ⟨os, hos⟩ := interact_append hlives (l :: rest)
  rw [hat.values] at he
  obtain ⟨l', r, hpending'⟩ := List.append_of_mem he
  obtain ⟨es, hes⟩ := Tape.pending_suffix_of_le hle
  -- the event is the only one of its date-time, so no other is found first
  have hpending : t.pending = (es ++ l') ++ e :: r := by
    rw [← hes, hpending', List.append_assoc]
  have hbefore : ∀ x ∈ es ++ l', decide (x.eventTime = e.eventTime) = false := by
    have hpairwise := hq.pairwise_eventTime
    rw [← h.whole, Tape.whole, hpending, List.pairwise_append] at hpairwise
    have hlt := (List.pairwise_append.mp hpairwise.2.1).2.2
    exact fun x hx => decide_eq_false (hlt x hx e List.mem_cons_self).ne
  have hsame := Tape.find_of_le (p := fun e' => e'.eventTime = e.eventTime) hle hpending hbefore
    (decide_eq_true rfl) ⟨l', hpending'.symm⟩
  have hfind := Tape.find_of_first (p := fun e' => e'.eventTime = e.eventTime) hpending hbefore
    (decide_eq_true rfl)
  obtain ⟨houtputs', hending', hturn'⟩ := turn_of_asks hq hat M hl he htime hold
  obtain ⟨houtputs, hending, hturn⟩ := turn_of_asks hq h M hl (by rw [hpending]; simp) htime hold
  rw [hsame] at hturn'
  have hconsole := hturn'.unique hturn
  refine ⟨(M.turn c l).console, os ++ [M.promptOf (M.interact c ls).console.event], ?_,
    ⟨es ++ l', ?_⟩, ?_, ?_⟩
  · have hcurrent := hturn.current
    rw [hfind] at hcurrent
    simpa [Tape.current, eq_comm] using hcurrent
  · rw [h.values, hpending, hturn.values, hfind]
  · rw [interact_of_none hending, houtputs]
  · rw [hos, interact_of_none hending', houtputs', hconsole]
    simp only [List.append_assoc, List.cons_append, List.nil_append]

/-- The second break point, as it is typed. -/
def Calendar.selectLine : Line :=
  ⟨"select 2011-May-14 00:00:00", ["select".toList, "2011-May-14".toList, "00:00:00".toList]⟩

lemma Calendar.asks_selectLine :
    selectLine.Asks ⟨2011, 5, 14, by decide⟩ ⟨0, 0, 0, by decide⟩ := by
  refine ⟨⟨"May".toList, ['-'], ['-'], [' '], [':'], [':'], ?_, ?_, ?_, ?_, ?_, ?_⟩, ?_⟩
  all_goals decide +kernel

/-- It is selected after the booking request before it has been played. -/
theorem select_from_anywhere_sample : ∃ c' os, c'.event = Calendar.breakPoint2 ∧
    (∃ es, Calendar.console.queue.eventList.values
      = es ++ Calendar.breakPoint2 :: c'.queue.eventList.values) ∧
    sampleTerminal.interact Calendar.console [Calendar.selectLine]
      = ⟨sampleTerminal.promptOf Calendar.console.event
          :: selectedOutputs sampleTerminal ⟨2011, 5, 14, by decide⟩ ⟨0, 0, 0, by decide⟩
          ++ (sampleTerminal.interact c' []).outputs,
        (sampleTerminal.interact c' []).console, (sampleTerminal.interact c' []).ending⟩ ∧
    sampleTerminal.interact Calendar.console [⟨"next", ["next".toList]⟩, Calendar.selectLine]
      = ⟨os ++ selectedOutputs sampleTerminal ⟨2011, 5, 14, by decide⟩ ⟨0, 0, 0, by decide⟩
          ++ (sampleTerminal.interact c' []).outputs,
        (sampleTerminal.interact c' []).console, (sampleTerminal.interact c' []).ending⟩ := by
  have hlives : (sampleTerminal.interact Calendar.console
      [⟨"next", ["next".toList]⟩]).ending = .endOfInput := by decide +kernel
  exact select_from_anywhere Calendar.playable_queue Calendar.atTape_console sampleTerminal hlives
    Calendar.asks_selectLine (by decide +kernel) (by decide +kernel) (by decide +kernel) []

end Sevmgr
