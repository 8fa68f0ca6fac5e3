import Sevmgr.Model.EventQueueManager
import Sevmgr.Model.Listing
import Sevmgr.Model.SelectCommand

/-!
The interactive program of `sevmgr/ui/cmdline/sevmgr.cpp`: its commands, and its loop from the
sample queue to the end of the session.

* `Terminal`: what the program uses of libraries, beside what the reader of date-times and the
  listings use.
* `Line`, `Output`, `Ending`: what the user types, what is written, and how the program ends.
* `extractCommand`: the command of a line.
* `Console`: the variables of the loop. `turn` is one round of it, with one definition for each
  command that does more than write a text.
* `interact`: the session on the lines of a user. `mainConsole` is where it begins.
-/

namespace Sevmgr

variable {T C : Type}

/-! ### Input and output -/

/-- What the program uses of libraries: how they take a date-time apart into the date and the time
of day, write it, name an event type, and read its name, with no type where they raise a
`CodeConversionException`. -/
structure Terminal (T C : Type) extends Boost, Showing T C where
  ptimeOf : DateTime → PTime
  showDateTime : DateTime → Text
  getTypeLabelAsString : T → String
  eventTypeOfString : String → Option T
  ptimeOf_dateTime : ∀ p : PTime, ptimeOf p.dateTime = p

/-- A line as the user types it, and the tokens that the read-line library makes of it. -/
structure Line where
  lUserInput : String
  lTokenListByReadline : List Text
deriving DecidableEq

/-- The prompt, and what is written on the output stream and on the error stream. -/
inductive Output where
  | prompt (s : String)
  | out (s : String)
  | err (s : String)
deriving DecidableEq

/-- How the program ends: by the command `QUIT`, at the end of the input, by an exception of the
date-time reader, of the event queue or of the JSON reader, on a failed assertion, or by reading out
of the range of a table. -/
inductive Ending (T : Type) where
  | quit
  | endOfInput
  | boost (x : BoostException)
  | queue (x : EventQueueException T)
  | json
  | aborted
  | outOfRange
deriving DecidableEq

/-! ### Commands -/

/-- `Command_T::Type_T`. -/
inductive Command where
  | nop
  | quit
  | help
  | list
  | display
  | select
  | next
  | run
  | jsonList
  | jsonDisplay
  | lastValue
deriving DecidableEq, Repr

/-- The command of a word in small letters. -/
def commandOf (lCommand : String) : Command :=
  if lCommand = "help" then .help
  else if lCommand = "list" then .list
  else if lCommand = "display" then .display
  else if lCommand = "select" then .select
  else if lCommand = "next" then .next
  else if lCommand = "run" then .run
  else if lCommand = "json_list" then .jsonList
  else if lCommand = "json_display" then .jsonDisplay
  else if lCommand = "quit" then .quit
  else .lastValue

/-- `extractCommand (ioTokenList)`, with the tokens it leaves. -/
def extractCommand : List Text → Command × List Text
  | [] => (.nop, [])
  | itTok :: ioTokenList => (commandOf (String.ofList (itTok.map Char.toLower)), ioTokenList)

/-- The text of the command `HELP`. -/
def helpText : String :=
  "\nCommands: \n"
    ++ " help\t\tDisplay this help\n"
    ++ " quit\t\tQuit the application\n"
    ++ " list\t\tList events in the queue. It is "
    ++ "possible to filter events according to their types\n"
    ++ "\t\t\t\t  'list_event BookingRequest' list all the booking requests\n"
    ++ "\t\t\t\t  'list_event BreakPoint' list all the break points\n"
    ++ " select\t\tSelect an event into the 'list' to become the current one. "
    ++ "For instance, try the command:\n\t\t  'select 2011-May-14 00:00:00'\n"
    ++ " display\tDisplay the current event\n"
    ++ " next\t\tPlay the current event and pop the next one from the queue\n"
    ++ " run\t\tPlay all the events until the next break-point, if any\n"
    ++ " \nDebug Commands\n"
    ++ " json_list\tList events in the queue in a JSON format\n"
    ++ " json_display\tDisplay the current event in a JSON format\n\n"

/-! ### The console -/

/-- The event queue of the service and `lCurrentInteractiveEventStruct`. The date-time and the type
of the prompt are read from the event at the start of each round. -/
structure Console (T C : Type) [Stdair T] (w : ℕ) where
  queue : EventQueue T C w
  event : EventStruct T C
deriving DecidableEq

/-- A round of the loop: what it writes, what it leaves and how it ends the program, if it does. -/
structure Turn (T C : Type) [Stdair T] (w : ℕ) where
  outputs : List Output
  console : Console T C w
  ending : Option (Ending T)
deriving DecidableEq

namespace Terminal

variable [Stdair T] {w : ℕ} (M : Terminal T C)

/-- A line on the output stream. -/
def endl (s : String) : Output := .out (s ++ "\n")

/-- The text of the command `LIST`. -/
def listing (q : EventQueue T C w) : List Text → String
  | [] => q.list M.toShowing
  | [lEventTypeStr] =>
      match M.eventTypeOfString (String.ofList lEventTypeStr) with
      | some lActualEventType => q.listOfType M.toShowing lActualEventType
      | none => "The event type '" ++ String.ofList lEventTypeStr
          ++ "' is not known. Try 'help' for more information on the 'list_event' command.\n"
  | _ => "The event type is not understood: try 'help' for more information on the 'list_event' "
      ++ "command.\n"

/-- What the command `SELECT` writes before it selects. -/
def selectOutputs (reading : DateTimeReader.Reading)
    (complaint : Option DateTimeReader.Complaint) : List Output :=
  complaint.toList.map (fun c => .err (c.message ++ "\n"))
    ++ [endl ("Try to select event: " ++ String.ofList (M.showDate reading.date) ++ " "
      ++ String.ofList (M.showDuration reading.time))]

/-- The command `SELECT`. -/
def selectTurn (c : Console T C w) (lTokenListByReadline : List Text) : Turn T C w :=
  let lCurrentInteractiveDateTime := M.ptimeOf c.event.eventTime
  let reading := selectReading M.toBoost lTokenListByReadline lCurrentInteractiveDateTime
  match reading.exit with
  | .raised x => ⟨[], c, some (.boost x)⟩
  | .outOfRange => ⟨[], c, some .outOfRange⟩
  | .returned complaint =>
      let call := c.queue.select c.event
        (lUserDateTime M.toBoost lTokenListByReadline lCurrentInteractiveDateTime)
      let c' : Console T C w := ⟨call.queue, call.event⟩
      match call.outcome with
      | .returned hasSelectBeenSuccessful =>
          ⟨M.selectOutputs reading complaint
            ++ [endl ("Selection successful: " ++ if hasSelectBeenSuccessful then "1" else "0")],
            c', none⟩
      | .raised x => ⟨M.selectOutputs reading complaint, c', some (.queue x)⟩
      | .aborted => ⟨M.selectOutputs reading complaint, c', some .aborted⟩

/-- What `EventQueueManager::popEvent` writes when it catches an exception. -/
def caughtOutputs (q : EventQueue T C w) (iEventStruct : EventStruct T C) : List Output :=
  match (q.popEvent iEventStruct).outcome with
  | .raised _ => [.err "The event queue is empty: no event can be popped out.\n"]
  | _ => []

/-- The command `NEXT`. -/
def nextTurn (c : Console T C w) : Turn T C w :=
  if c.queue.isQueueDone then
    ⟨[endl "Next", endl "The event queue is empty: no event can be popped out."], c, none⟩
  else
    let call := c.queue.managerPopEvent c.event
    ⟨endl "Next" :: caughtOutputs c.queue c.event
        ++ [endl ("Poped event: '" ++ M.describe call.event ++ "'.")],
      ⟨call.queue, call.event⟩, none⟩

/-- The command `RUN`. -/
def runTurn (c : Console T C w) : Turn T C w :=
  let call := c.queue.run c.event
  let c' : Console T C w := ⟨call.queue, call.event⟩
  match call.outcome with
  | .returned _ =>
      if call.event.eventType = brkPt then
        ⟨[endl "Run", endl ("Break point found. Stop at: '" ++ M.describe call.event ++ "'.")],
          c', none⟩
      else
        ⟨[endl "Run", endl ("No break point found. All the events have been played.\n"
            ++ "The current event is the last one.")],
          c', none⟩
  | .raised x => ⟨[endl "Run"], c', some (.queue x)⟩
  | .aborted => ⟨[endl "Run"], c', some .aborted⟩

/-- The command `JSON_LIST`. -/
def jsonListTurn (c : Console T C w) : Turn T C w :=
  match c.queue.jsonExportEventQueue M.toShowing none with
  | some lCSVEventQueueDumpAfter => ⟨[endl "JSON List", endl lCSVEventQueueDumpAfter], c, none⟩
  | none => ⟨[endl "JSON List"], c, some .json⟩

/-- A command that is not understood: the tokens are written on the output stream by the operator
that was to put them into the message. -/
def unknownOutputs (lUserInput : String) (lTokenListByReadline : List Text) : List Output :=
  [.out (String.join (lTokenListByReadline.map fun tok => String.ofList tok ++ " ")),
    endl ("That command is not yet understood: '" ++ lUserInput ++ "' => ")]

/-- The round of the loop for a line. -/
def turn (c : Console T C w) (l : Line) : Turn T C w :=
  let lTokenListByReadline := (extractCommand l.lTokenListByReadline).2
  match (extractCommand l.lTokenListByReadline).1 with
  | .help => ⟨[.out helpText], c, none⟩
  | .quit => ⟨[], c, some .quit⟩
  | .list => ⟨[endl (M.listing c.queue lTokenListByReadline)], c, none⟩
  | .select => M.selectTurn c lTokenListByReadline
  | .display => ⟨[endl "Display", endl (M.describe c.event)], c, none⟩
  | .next => M.nextTurn c
  | .run => M.runTurn c
  | .jsonList => M.jsonListTurn c
  | .jsonDisplay => ⟨[endl "JSON Display", endl (M.jsonExportEventObject c.event)], c, none⟩
  | .nop => ⟨[], c, none⟩
  | .lastValue => ⟨unknownOutputs l.lUserInput lTokenListByReadline, c, none⟩

/-! ### The session -/

/-- The prompt of a round. -/
def promptOf (lCurrentInteractiveEventStruct : EventStruct T C) : Output :=
  .prompt ("sevmgr " ++ M.getTypeLabelAsString lCurrentInteractiveEventStruct.eventType ++ " / "
    ++ String.ofList (M.showDateTime lCurrentInteractiveEventStruct.eventTime) ++ "> ")

/-- What is written at the end of the session. -/
def farewell : Output := endl "End of the session. Exiting."

/-- What a session writes, where it gets and how it ends. -/
structure Transcript (T C : Type) [Stdair T] (w : ℕ) where
  outputs : List Output
  console : Console T C w
  ending : Ending T
deriving DecidableEq

/-- The loop on the lines of the user, after which the input ends. -/
def interact (c : Console T C w) : List Line → Transcript T C w
  | [] => ⟨[M.promptOf c.event, endl "", farewell], c, .endOfInput⟩
  | l :: ls =>
      match (M.turn c l).ending with
      | none =>
          let r := interact (M.turn c l).console ls
          ⟨M.promptOf c.event :: (M.turn c l).outputs ++ r.outputs, r.console, r.ending⟩
      | some .quit =>
          ⟨M.promptOf c.event :: (M.turn c l).outputs ++ [farewell], (M.turn c l).console, .quit⟩
      | some x => ⟨M.promptOf c.event :: (M.turn c l).outputs, (M.turn c l).console, x⟩

end Terminal

/-- The console at the start of the loop: the sample queue is built, and its first event is popped
into the event structure. -/
def mainConsole [Stdair T] (w : ℕ) (lEventStruct lEventStructForCRS lEventBreakPoint1
    lEventBreakPoint2 lCurrentInteractiveEventStruct : EventStruct T C) : Console T C w :=
  let q := (EventQueue.fresh "EQ01").buildSampleQueue lEventStruct lEventStructForCRS
    lEventBreakPoint1 lEventBreakPoint2
  let call := q.managerPopEvent lCurrentInteractiveEventStruct
  ⟨call.queue, call.event⟩

end Sevmgr
