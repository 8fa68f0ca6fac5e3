import Sevmgr.Interactive.Start
import Sevmgr.Sessions.Listings

/-!
Whole sessions of the interactive program.

* `interact_of_none`, `interact_of_some`: the session after a round that goes on and after one that
  ends it.
* `interact_plays`: a session ends further on the tape, and never by an exception of the queue or
  on a failed assertion. So `main_plays` says what holds at the end of every session of the program.
* `consoles`: the consoles at which the user is prompted. By `prompts_forward` the date-time of the
  prompt never goes back.
* `list_then_nexts`: what is written when the events are listed and then played one by one.
* `list_then_runs`: what is written when the break points are listed and then run to.
-/

namespace Sevmgr

open EventQueue Terminal

variable {T C : Type} [Stdair T] {w : ℕ} {q : EventQueue T C w} {c c' : Console T C w}
  {t t' : Tape (EventStruct T C)} {M : Terminal T C} {e₁ e₂ b₁ b₂ : EventStruct T C}

/-! ### Round after round -/

/-- What is written as a prompt. -/
def Output.isPrompt : Output → Bool
  | .prompt _ => true
  | .out _ | .err _ => false

lemma interact_of_none {l : Line} (h : (M.turn c l).ending = none) (ls : List Line) :
    M.interact c (l :: ls) = ⟨M.promptOf c.event :: (M.turn c l).outputs
        ++ (M.interact (M.turn c l).console ls).outputs,
      (M.interact (M.turn c l).console ls).console,
      (M.interact (M.turn c l).console ls).ending⟩ := by
  rw [interact, h]

lemma interact_of_some {l : Line} {x : Ending T} (h : (M.turn c l).ending = some x)
    (ls : List Line) : (M.interact c (l :: ls)).console = (M.turn c l).console ∧
      (M.interact c (l :: ls)).ending = x ∧ ∃ os, (∀ o ∈ os, o.isPrompt = false) ∧
        (M.interact c (l :: ls)).outputs
          = M.promptOf c.event :: (M.turn c l).outputs ++ os := by
  rw [interact, h]
  cases x with
  | quit => exact ⟨rfl, rfl, [farewell], by simp [farewell, endl, Output.isPrompt], rfl⟩
  | endOfInput | boost | queue | json | aborted | outOfRange =>
      exact ⟨rfl, rfl, [], List.forall_mem_nil _, (List.append_nil _).symm⟩

/-- No round ends the input. -/
lemma ending_turn_ne (M : Terminal T C) (c : Console T C w) (l : Line) :
    (M.turn c l).ending ≠ some .endOfInput := by
  rw [Terminal.turn]
  cases (extractCommand l.lTokenListByReadline).1 with
  | next =>
      rw [Terminal.nextTurn]
      split_ifs <;> simp
  | run =>
      simp only [Terminal.runTurn]
      cases (c.queue.run c.event).outcome with
      | returned a => split_ifs <;> simp
      | raised x => simp
      | aborted => simp
  | select =>
      simp only [Terminal.selectTurn]
      cases (selectReading M.toBoost _ (M.ptimeOf c.event.eventTime)).exit with
      | raised x => simp
      | outOfRange => simp
      | returned complaint =>
          simp only []
          cases (c.queue.select c.event _).outcome <;> simp
  | jsonList =>
      rw [Terminal.jsonListTurn]
      cases c.queue.jsonExportEventQueue M.toShowing none <;> simp
  | quit | nop | help | list | display | jsonDisplay | lastValue => simp

/-- A session that ends with its lines may be gone on with. -/
lemma interact_append {ls : List Line} (h : (M.interact c ls).ending = .endOfInput)
    (ls' : List Line) : ∃ os, M.interact c (ls ++ ls')
      = ⟨os ++ (M.interact (M.interact c ls).console ls').outputs,
        (M.interact (M.interact c ls).console ls').console,
        (M.interact (M.interact c ls).console ls').ending⟩ := by
  induction ls generalizing c with
  | nil => exact ⟨[], rfl⟩
  | cons l ls ih =>
      cases hend : (M.turn c l).ending with
      | none =>
          rw [interact_of_none hend] at h
          obtain ⟨os, hos⟩ := ih h
          refine ⟨M.promptOf c.event :: (M.turn c l).outputs ++ os, ?_⟩
          rw [List.cons_append, interact_of_none hend, interact_of_none hend, hos,
            List.append_assoc]
      | some x =>
          obtain ⟨-, hending, -⟩ := interact_of_some hend ls
          rw [hending] at h
          exact absurd (h ▸ hend) (ending_turn_ne M c l)

/-- **No session breaks the queue.** On a console that has played a first part of the events of a
playable queue, whatever lines are typed, the program is not ended by an exception of the queue or a
failed assertion, and the console ends at the same place of the events or further on. -/
theorem interact_plays (hq : Playable q) (h : AtTape q t c) (M : Terminal T C) (ls : List Line) :
    (M.interact c ls).ending.Sound ∧
      ∃ t', t ≤ t' ∧ AtTape q t' (M.interact c ls).console ∧
        Unshifted (M.interact c ls).console.queue := by
  induction ls generalizing t c with
  | nil => exact ⟨trivial, t, le_rfl, h, h.pops.unshifted hq.toUnshifted⟩
  | cons l ls ih =>
      have hturn := h.turn M hq l
      have hle := le_moveOf M c.event l t
      cases hend : (M.turn c l).ending with
      | none =>
          obtain ⟨hsound, t', hle', hat, hunshifted⟩ := ih hturn.atTape
          rw [interact_of_none hend]
          exact ⟨hsound, t', hle.trans hle', hat, hunshifted⟩
      | some x =>
          obtain ⟨hconsole, hending, -⟩ := interact_of_some hend ls
          rw [hconsole, hending]
          exact ⟨hturn.sound x hend, _, hle, hturn.atTape,
            hturn.atTape.pops.unshifted hq.toUnshifted⟩

/-- **The program plays the sample queue through.** Whatever lines are typed, the program is not
ended by an exception of the queue or a failed assertion. The current event is one of the four, the
queue holds those that come after it, in the order of their date-times, and the statuses count those
played so far. When none are left, the queue is the one that the batch leaves. -/
theorem main_plays (M : Terminal T C) (h : IsDistinctSample e₁ e₂ b₁ b₂) (io : EventStruct T C)
    (ls : List Line) :
    let r := M.interact (mainConsole w e₁ e₂ b₁ b₂ io) ls
    r.ending.Sound ∧ ∃ es,
      (es ++ r.console.event :: r.console.queue.eventList.values).Perm [e₁, e₂, b₁, b₂] ∧
      (es ++ r.console.event :: r.console.queue.eventList.values).Pairwise
        (fun e e' => e.eventTime < e'.eventTime) ∧
      r.console.queue.progressStatus.currentNb = es.length + 1 ∧
      (∀ t, t = bkgReq ∨ t = brkPt → r.console.queue.progressStatusMap.find? t
        = some ⟨nbOfType t (es ++ [r.console.event]), 2, 2⟩) ∧
      (r.console.queue.eventList = .empty →
        ∀ io, r.console.queue = (demo w io e₁ e₂ b₁ b₂).queue) := by
  intro r
  have hq := playable_mainQueue (w := w) h
  obtain ⟨t₀, hstart⟩ := atTape_mainConsole (w := w) h io
  obtain ⟨hsound, t, -, hat, -⟩ := interact_plays hq hstart M ls
  have hremoved := removed_of_pops (G := fun _ _ => True) hat.pops.happensIf
  obtain ⟨es, hes⟩ := List.getLast?_eq_some_iff.mp hat.current
  have hwhole : es ++ r.console.event :: r.console.queue.eventList.values
      = (mainQueue w e₁ e₂ b₁ b₂).eventList.values := by
    rw [hat.pops.values, hes, List.append_assoc, List.singleton_append]
  refine ⟨hsound, es, ?_, ?_, ?_, fun t ht => ?_, fun hdone io => ?_⟩
  · rw [hwhole]
    exact values_mainQueue h
  · rw [hwhole]
    exact hq.pairwise_eventTime
  · rw [hremoved.overall, hes, currentNb_mainQueue, zero_add, List.length_append]
    rfl
  · rw [hremoved.types, find?_mainQueue e₁ e₂ b₁ b₂ ht, hes, Option.map_some,
      ProgressStatus.ofExpected, zero_add]
  · have hplayed := hat.pops.values
    rw [hdone, SortedMap.values_empty, List.append_nil] at hplayed
    have hpops := hat.pops
    rw [← hplayed] at hpops
    exact hpops.unique (drains_simulate (mainQueue w e₁ e₂ b₁ b₂) io).pops

/-- The second break point is selected, and the events that are left are run. -/
theorem main_plays_sample :
    let r := sampleTerminal.interact Calendar.console
      [⟨"select", ["select".toList, "2011-May-14".toList, "00:00:00".toList]⟩,
        ⟨"run", ["run".toList]⟩]
    r.ending.Sound ∧ ∃ es,
      (es ++ r.console.event :: r.console.queue.eventList.values).Perm
        [Calendar.request, Calendar.requestForCRS, Calendar.breakPoint1, Calendar.breakPoint2] ∧
      (es ++ r.console.event :: r.console.queue.eventList.values).Pairwise
        (fun e e' => e.eventTime < e'.eventTime) ∧
      r.console.queue.progressStatus.currentNb = es.length + 1 ∧
      (∀ t, t = bkgReq ∨ t = brkPt → r.console.queue.progressStatusMap.find? t
        = some ⟨nbOfType t (es ++ [r.console.event]), 2, 2⟩) ∧
      (r.console.queue.eventList = .empty → ∀ io, r.console.queue
        = (demo 32 io Calendar.request Calendar.requestForCRS Calendar.breakPoint1
          Calendar.breakPoint2).queue) :=
  main_plays sampleTerminal Calendar.isDistinctSample _ _

/-! ### The prompts -/

/-- The consoles at which the user is prompted. -/
def consoles (M : Terminal T C) (c : Console T C w) : List Line → List (Console T C w)
  | [] => [c]
  | l :: ls => c :: match (M.turn c l).ending with
      | none => consoles M (M.turn c l).console ls
      | some _ => []

/-- A round writes no prompt. -/
lemma isPrompt_turn (M : Terminal T C) (c : Console T C w) (l : Line) :
    ∀ o ∈ (M.turn c l).outputs, o.isPrompt = false := by
  rw [Terminal.turn]
  cases (extractCommand l.lTokenListByReadline).1 with
  | next =>
      rw [Terminal.nextTurn]
      split_ifs
      · simp [endl, Output.isPrompt]
      · simp only [caughtOutputs]
        cases (c.queue.popEvent c.event).outcome <;> simp [endl, Output.isPrompt]
  | run =>
      simp only [Terminal.runTurn]
      cases (c.queue.run c.event).outcome with
      | returned a => split_ifs <;> simp [endl, Output.isPrompt]
      | raised x => simp [endl, Output.isPrompt]
      | aborted => simp [endl, Output.isPrompt]
  | select =>
      simp only [Terminal.selectTurn]
      cases (selectReading M.toBoost _ (M.ptimeOf c.event.eventTime)).exit with
      | raised x => simp
      | outOfRange => simp
      | returned complaint =>
          simp only []
          cases (c.queue.select c.event _).outcome <;> cases complaint <;>
            simp [selectOutputs, endl, Output.isPrompt]
  | jsonList =>
      rw [Terminal.jsonListTurn]
      cases c.queue.jsonExportEventQueue M.toShowing none <;> simp [endl, Output.isPrompt]
  | quit => simp
  | nop => simp
  | help => simp [Output.isPrompt]
  | list => simp [endl, Output.isPrompt]
  | display => simp [endl, Output.isPrompt]
  | jsonDisplay => simp [endl, Output.isPrompt]
  | lastValue => simp [unknownOutputs, endl, Output.isPrompt]

lemma filter_isPrompt_of_forall {os : List Output} (h : ∀ o ∈ os, o.isPrompt = false) :
    os.filter Output.isPrompt = [] :=
  List.filter_eq_nil_iff.mpr fun o ho => by simp [h o ho]

/-- The prompts that a session writes are those of its consoles. -/
lemma filter_outputs_interact (M : Terminal T C) (c : Console T C w) (ls : List Line) :
    (M.interact c ls).outputs.filter Output.isPrompt
      = (consoles M c ls).map fun c => M.promptOf c.event := by
  induction ls generalizing c with
  | nil => rfl
  | cons l ls ih =>
      have hround := filter_isPrompt_of_forall (isPrompt_turn M c l)
      cases hend : (M.turn c l).ending with
      | none =>
          rw [interact_of_none hend, consoles, hend, List.cons_append, List.filter_cons,
            List.filter_append, hround, ih]
          rfl
      | some x =>
          obtain ⟨-, -, os, hos, houtputs⟩ := interact_of_some hend ls
          rw [houtputs, consoles, hend, List.cons_append, List.filter_cons, List.filter_append,
            hround, filter_isPrompt_of_forall hos]
          rfl

/-- Further on the tape nothing has changed, or the current event is a later one. -/
lemma AtTape.forward (hq : Unshifted q) (h : AtTape q t c) (h' : AtTape q t' c') (hle : t ≤ t') :
    c' = c ∨ c.event.eventTime < c'.event.eventTime := by
  obtain ⟨es, hes⟩ := Tape.played_prefix_of_le hle
  rcases es.eq_nil_or_concat with rfl | ⟨es, e, rfl⟩
  · left
    rw [List.append_nil] at hes
    obtain rfl : t = t' := Tape.ext_length (Tape.whole_eq_of_le hle) (by rw [hes])
    exact h'.unique h
  · right
    have he : c'.event = e := by
      have hlast := h'.current
      rw [Tape.current, ← hes] at hlast
      simpa [eq_comm] using hlast
    have hpairwise := hq.pairwise_eventTime
    rw [← h'.whole, Tape.whole, ← hes, List.append_assoc, List.pairwise_append] at hpairwise
    rw [he]
    exact hpairwise.2.2 _ (List.mem_of_getLast? h.current) _ (by simp)

/-- The consoles of a session lie at the place it starts from or further on. -/
lemma atTape_consoles (hq : Playable q) (h : AtTape q t c) (M : Terminal T C) (ls : List Line) :
    ∀ c' ∈ consoles M c ls, ∃ t', t ≤ t' ∧ AtTape q t' c' := by
  induction ls generalizing t c with
  | nil =>
      intro c' hc'
      obtain rfl := List.mem_singleton.mp hc'
      exact ⟨t, le_rfl, h⟩
  | cons l ls ih =>
      intro c' hc'
      have hle := le_moveOf M c.event l t
      rw [consoles, List.mem_cons] at hc'
      rcases hc' with rfl | hc'
      · exact ⟨t, le_rfl, h⟩
      · cases hend : (M.turn c l).ending with
        | none =>
            rw [hend] at hc'
            obtain ⟨t', hle', hat⟩ := ih (h.turn M hq l).atTape c' hc'
            exact ⟨t', hle.trans hle', hat⟩
        | some x =>
            rw [hend] at hc'
            exact absurd hc' List.not_mem_nil

/-- **The prompt never goes back.** The prompts of a session show the events of its consoles; from
each of them to any later one either nothing has changed, be it the event or the queue, or the
date-time is a later one. -/
theorem prompts_forward (hq : Playable q) (h : AtTape q t c) (M : Terminal T C) (ls : List Line) :
    (M.interact c ls).outputs.filter Output.isPrompt
        = (consoles M c ls).map (fun c => M.promptOf c.event) ∧
      (consoles M c ls).Pairwise fun c₁ c₂ =>
        c₂ = c₁ ∨ c₁.event.eventTime < c₂.event.eventTime := by
  refine ⟨filter_outputs_interact M c ls, ?_⟩
  induction ls generalizing t c with
  | nil => exact List.pairwise_singleton _ _
  | cons l ls ih =>
      have hturn := h.turn M hq l
      have hle := le_moveOf M c.event l t
      rw [consoles, List.pairwise_cons]
      cases hend : (M.turn c l).ending with
      | none =>
          refine ⟨fun c' hc' => ?_, ih hturn.atTape⟩
          obtain ⟨t', hle', hat⟩ := atTape_consoles hq hturn.atTape M ls c' hc'
          exact h.forward hq.toUnshifted hat (hle.trans hle')
      | some x => exact ⟨fun c' hc' => absurd hc' List.not_mem_nil, List.Pairwise.nil⟩

theorem prompts_forward_sample :
    let ls : List Line := [⟨"next", ["NEXT".toList]⟩, ⟨"run", ["run".toList]⟩]
    (sampleTerminal.interact Calendar.console ls).outputs.filter Output.isPrompt
        = (consoles sampleTerminal Calendar.console ls).map
          (fun c => sampleTerminal.promptOf c.event) ∧
      (consoles sampleTerminal Calendar.console ls).Pairwise fun c₁ c₂ =>
        c₂ = c₁ ∨ c₁.event.eventTime < c₂.event.eventTime :=
  prompts_forward Calendar.playable_queue Calendar.atTape_console _ _

/-! ### Listing and playing one by one -/

/-- What so many commands `NEXT` write from the event `io` on, when the events `es` are to come. -/
def nextOutputs (M : Terminal T C) (io : EventStruct T C) : List (EventStruct T C) → ℕ → List Output
  | _, 0 => [M.promptOf io, endl "", farewell]
  | [], n + 1 => M.promptOf io :: endl "Next"
      :: endl "The event queue is empty: no event can be popped out." :: nextOutputs M io [] n
  | e :: es, n + 1 => M.promptOf io :: endl "Next"
      :: endl ("Poped event: '" ++ M.describe e ++ "'.") :: nextOutputs M e es n

/-- The line is a command, in letters of any case, without anything after it. -/
def Line.IsCommand (l : Line) (command : Command) : Prop :=
  extractCommand l.lTokenListByReadline = (command, [])

/-- `NEXT` writes the events to come, one after the other, and a notice when none is left. -/
lemma outputs_nexts (hq : Playable q) (h : AtTape q t c) (M : Terminal T C) {ls : List Line}
    (hls : ∀ l ∈ ls, l.IsCommand .next) :
    (M.interact c ls).outputs = nextOutputs M c.event t.pending ls.length := by
  induction ls generalizing t c with
  | nil => cases t.pending <;> rfl
  | cons l ls ih =>
      obtain ⟨hl, hls⟩ := List.forall_mem_cons.mp hls
      have hturn : M.turn c l = M.nextTurn c := by rw [Terminal.turn, hl]
      have hplays := (h.nextTurn M hq).atTape
      cases hpending : t.pending with
      | nil =>
          have hsame := nextTurn_of_nil M h hpending
          have hrest := ih h hls
          rw [interact_of_none (by rw [hturn, hsame]), hturn, hsame, hrest, hpending]
          rfl
      | cons e es =>
          obtain ⟨k, -, hnext⟩ := nextTurn_of_cons M hq h hpending
          rw [hnext, Tape.next_cons hpending] at hplays
          have hrest := ih hplays hls
          rw [interact_of_none (by rw [hturn, hnext]), hturn, hnext, hrest]
          rfl

/-- **`LIST` foretells `NEXT`.** The events that `LIST` describes are those that the commands `NEXT`
typed after it pop and describe, one by one and in the same order, each of them being shown by the
prompt that follows; when none is left the further commands write that the queue is empty. -/
theorem list_then_nexts (hq : Playable q) (h : AtTape q t c) (M : Terminal T C) {l : Line}
    {ls : List Line} (hl : l.IsCommand .list) (hls : ∀ l ∈ ls, l.IsCommand .next) :
    (M.interact c (l :: ls)).outputs = M.promptOf c.event
      :: endl (c.queue.header ++ describeAll M.toShowing t.pending)
      :: nextOutputs M c.event t.pending ls.length := by
  have hturn : M.turn c l = ⟨[endl (c.queue.list M.toShowing)], c, none⟩ := by
    rw [Terminal.turn, hl]
    rfl
  rw [interact_of_none (by rw [hturn]), hturn, outputs_nexts hq h M hls, list_eq, h.values]
  rfl

theorem list_then_nexts_sample :
    (sampleTerminal.interact Calendar.console
        [⟨"list", ["list".toList]⟩, ⟨"next", ["next".toList]⟩]).outputs
      = sampleTerminal.promptOf Calendar.console.event
      :: endl (Calendar.console.queue.header ++ describeAll sampleTerminal.toShowing
        [Calendar.requestForCRS, Calendar.breakPoint2, Calendar.request])
      :: nextOutputs sampleTerminal Calendar.console.event
        [Calendar.requestForCRS, Calendar.breakPoint2, Calendar.request] 1 := by
  have hl : Line.IsCommand ⟨"list", ["list".toList]⟩ .list := by
    rw [Line.IsCommand]
    decide +kernel
  have hls : ∀ l ∈ [(⟨"next", ["next".toList]⟩ : Line)], l.IsCommand .next := by
    simp only [Line.IsCommand]
    decide +kernel
  exact list_then_nexts Calendar.playable_queue Calendar.atTape_console sampleTerminal hl hls

/-! ### Listing the break points and running to them -/

/-- What the commands `RUN` write from the event `io` on, when they leave these events in turn. -/
def runOutputs (M : Terminal T C) (io : EventStruct T C) : List (EventStruct T C) → List Output
  | [] => [M.promptOf io, endl "", farewell]
  | e :: es => M.promptOf io :: M.runReport e ++ runOutputs M e es

/-- `RUN` writes the events that the runs of the queue leave. -/
lemma outputs_runs (hreg : PendingRegistered c.queue) (M : Terminal T C) {ls : List Line}
    (hls : ∀ l ∈ ls, l.IsCommand .run) : (M.interact c ls).outputs
      = runOutputs M c.event ((c.queue.runs c.event ls.length).map Call.event) := by
  induction ls generalizing c with
  | nil => rfl
  | cons l ls ih =>
      obtain ⟨hl, hls⟩ := List.forall_mem_cons.mp hls
      obtain ⟨-, hreg', -⟩ := run_cases hreg c.event
      have hturn : M.turn c l = M.runTurn c := by rw [Terminal.turn, hl]
      have hround := runTurn_eq M hreg
      have hrest := ih (c := ⟨(c.queue.run c.event).queue, (c.queue.run c.event).event⟩) hreg' hls
      rw [interact_of_none (by rw [hturn, hround]), hturn, hround, hrest]
      rfl

/-- **`LIST` of the break points foretells `RUN`.** The events that `LIST` describes when it is
asked for the break points are those at which the commands `RUN` typed after it stop, one by one and
in the same order. When none is left, each further command leaves the last event of the queue, or
the current one if the queue was empty: where that event is a break point, a break point is said to
have been found again, and else that there is none. -/
theorem list_then_runs (hreg : PendingRegistered c.queue) (M : Terminal T C) {l : Line}
    {ls : List Line} {tok : Text} (hl : extractCommand l.lTokenListByReadline = (.list, [tok]))
    (htok : M.eventTypeOfString (String.ofList tok) = some brkPt)
    (hls : ∀ l ∈ ls, l.IsCommand .run) :
    let es := c.queue.eventList.values
    (M.interact c (l :: ls)).outputs = M.promptOf c.event
      :: endl (c.queue.header ++ ("List " ++ getLabel (brkPt : T) ++ " events:\n")
        ++ describeAll M.toShowing (ofType brkPt es))
      :: runOutputs M c.event
        ((ofType brkPt es ++ List.replicate ls.length (es.getLast?.getD c.event)).take
          ls.length) := by
  have hturn : M.turn c l = ⟨[endl (c.queue.listOfType M.toShowing brkPt)], c, none⟩ := by
    rw [Terminal.turn, hl]
    simp only [listing, htok]
  have hstops := events_runs hreg c.event ls.length
  rw [interact_of_none (by rw [hturn]), hturn, outputs_runs hreg M hls, hstops, listOfType_eq]
  rfl

theorem list_then_runs_sample :
    (sampleTerminal.interact Calendar.console
        [⟨"list BreakPoint", ["list".toList, "BreakPoint".toList]⟩, ⟨"run", ["run".toList]⟩,
          ⟨"run", ["run".toList]⟩]).outputs
      = sampleTerminal.promptOf Calendar.console.event
      :: endl (Calendar.console.queue.header ++ ("List " ++ getLabel (brkPt : CalendarType)
        ++ " events:\n") ++ describeAll sampleTerminal.toShowing [Calendar.breakPoint2])
      :: runOutputs sampleTerminal Calendar.console.event
        [Calendar.breakPoint2, Calendar.request] := by
  have hl : extractCommand ["list".toList, "BreakPoint".toList]
      = (.list, ["BreakPoint".toList]) := by decide +kernel
  have htok : sampleTerminal.eventTypeOfString (String.ofList "BreakPoint".toList)
      = some brkPt := by decide +kernel
  have hls : ∀ l ∈ [(⟨"run", ["run".toList]⟩ : Line), ⟨"run", ["run".toList]⟩],
      l.IsCommand .run := by
    simp only [Line.IsCommand]
    decide +kernel
  exact list_then_runs (Calendar.atTape_console.pops.unshifted
    Calendar.playable_queue.toUnshifted).registered sampleTerminal hl htok hls

end Sevmgr
