import Sevmgr.Model.EventQueue

/-!
The listings of an event queue: the texts of `EventQueue::list`, and the JSON document of
`sevmgr/bom/BomJSONExport.cpp`.

How a single event is shown is up to StdAir, and JSON texts are read and written by Boost, so these
are the fields of a parameter.

* `PTree`: the property trees of Boost.
* `Showing`: what is used of StdAir and of Boost.
* `list`, `listOfType`: the two listings in text.
* `jsonExportEvents`, `jsonExportEventQueue`: the loop over the events, and the document.
* `jsonHandler`: the commands that come as JSON.
-/

namespace Sevmgr

/-! ### What shows an event -/

/-- `boost::property_tree::ptree`: a text, and trees under names. -/
inductive PTree where
  | node (data : String) (children : List (String × PTree))

/-- `describe()` of an event, `jsonExportEventObject` of `STDAIR_Service`, and the functions
`read_json`, with no tree where it raises, and `write_json` of Boost. -/
structure Showing (T C : Type) where
  describe : EventStruct T C → String
  jsonExportEventObject : EventStruct T C → String
  readJson : String → Option PTree
  writeJson : PTree → String

/-- What `jsonHandler` uses of StdAir: the commands `EN_JSonCommand` with their labels, and what
`BomJSONImport` finds in a text. -/
structure JsonImport (T J : Type) where
  eventList : J
  getLabel : J → String
  jsonImportCommand : String → Option J
  jsonImportEventType : String → Option T

variable {T C J : Type}

namespace EventQueue

variable [Stdair T] {w : ℕ}

/-! ### Texts -/

/-- `list()`. -/
def list (S : Showing T C) (q : EventQueue T C w) : String :=
  let oStr := q.describeKey ++ "\n" ++ q.display.toString ++ "\n"
  q.eventList.values.foldl (fun oStr lEvent => oStr ++ S.describe lEvent) oStr

/-- `list (iType)`. -/
def listOfType (S : Showing T C) (q : EventQueue T C w) (iType : T) : String :=
  let oStr := q.describeKey ++ "\n" ++ q.display.toString ++ "\n" ++ "List " ++ getLabel iType
    ++ " events:\n"
  q.eventList.values.foldl
    (fun oStr lEvent => if lEvent.eventType = iType then oStr ++ S.describe lEvent else oStr) oStr

/-! ### The JSON document -/

/-- The loop of `BomJSONExport::jsonExportEventQueue`, from the trees collected so far. It is broken
off by a text that `read_json` does not accept. The type is `LAST_VALUE`, which asks for all
events, where there is none. -/
def jsonExportEvents (S : Showing T C) (iEventType : Option T) (ptEvents : List (String × PTree)) :
    List (EventStruct T C) → Option (List (String × PTree))
  | [] => some ptEvents
  | lEvent :: lEvents =>
      if iEventType = some lEvent.eventType ∨ iEventType = none then
        let lCurrentEvent := S.jsonExportEventObject lEvent
        if lCurrentEvent = "" then jsonExportEvents S iEventType ptEvents lEvents
        else match S.readJson lCurrentEvent with
          | none => none
          | some ptCurrentEvent =>
              jsonExportEvents S iEventType (ptEvents ++ [("", ptCurrentEvent)]) lEvents
      else jsonExportEvents S iEventType ptEvents lEvents

/-- `BomJSONExport::jsonExportEventQueue`, with no text where an exception leaves it. -/
def jsonExportEventQueue (S : Showing T C) (q : EventQueue T C w) (iEventType : Option T) :
    Option String :=
  match jsonExportEvents S iEventType [] q.eventList.values with
  | none => none
  | some ptEvents => some (S.writeJson (.node "" [("events", .node "" ptEvents)]))

/-- `SEVMGR_Service::jsonHandler (iJSONString)`. -/
def jsonHandler [DecidableEq J] (S : Showing T C) (I : JsonImport T J) (q : EventQueue T C w)
    (iJSONString : String) : Option String :=
  match I.jsonImportCommand iJSONString with
  | none =>
      some ("\x7b\"error\": \"Wrong JSON-ified string: " ++ "the command is not understood.\"\x7d")
  | some lCommand =>
      if lCommand = I.eventList then
        match I.jsonImportEventType iJSONString with
        | some lEventType => q.jsonExportEventQueue S (some lEventType)
        | none => q.jsonExportEventQueue S none
      else some ("\x7b\"error\": \"The command '" ++ I.getLabel lCommand
        ++ "' is not handled by the DSim service.\"\x7d")

end EventQueue

end Sevmgr
