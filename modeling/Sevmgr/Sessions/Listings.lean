import Sevmgr.Model.SampleTerminal
import Sevmgr.Sessions.Pending

/-!
What a listing says of the events to be played.

* `Op.Keeps`: the calls that neither add events nor clear the queue. In whatever order they play
  the events, `Session.values_eq` finds those played and those left in the order of the list.
* `describeAll`, `list_eq`, `listOfType_eq`: the texts, event by event.
* `Malformed`, `eventTrees`, `jsonExportEvents_eq`: the JSON document, event by event.
* `Session.listing_foretells`: a listing taken at any time shows what is played from then on, and
  what is left.
-/

namespace Sevmgr

open EventQueue

variable {T C J : Type} [Stdair T] {w : ℕ} {q q' : EventQueue T C w} {S : Showing T C}

/-! ### Events played in the order of the list -/

/-- The call neither adds an event nor clears the queue. -/
def Op.Keeps (_ : EventQueue T C w) : Op T C → Prop
  | .addEvent _ | .reset => False
  | _ => True

instance (q : EventQueue T C w) : ∀ op, Decidable (Op.Keeps q op)
  | .addEvent _ | .reset => .isFalse id
  | .addStatus _ _ | .updateStatus _ _ | .popEvent _ | .run _ | .select _ _ => .isTrue trivial

lemma values_eq_of_happens {x : Happening T C} (h : HappensIf Op.Keeps q x q') :
    q.eventList.values = popped [x] ++ q'.eventList.values := by
  obtain ⟨hx, hcall⟩ := h
  cases hx with
  | statusAdded t n =>
      rw [eventList_addStatus]
      rfl
  | statusUpdated t n =>
      rw [eventList_updateStatus]
      rfl
  | added e => exact (hcall _ rfl).elim
  | popped hfirst => exact SortedMap.values_eq_cons_of_first? hfirst
  | cleared => exact (hcall _ rfl).elim

/-- The events played and those left are those that were pending, in their order. -/
lemma Session.values_eq {ls : List (Exchange T C w)} (hs : Session Op.Keeps q ls q') :
    q.eventList.values = popped (history ls) ++ q'.eventList.values := by
  refine hs.happens.history (H := fun h q₁ => q.eventList.values = popped h ++ q₁.eventList.values)
    rfl fun h q₁ x q₂ hq hx => ?_
  rw [hq, values_eq_of_happens hx, popped_append, List.append_assoc]

/-! ### Texts -/

/-- The lines above the events. -/
def EventQueue.header (q : EventQueue T C w) : String :=
  q.describeKey ++ "\n" ++ q.display.toString ++ "\n"

/-- The texts of some events, one after the other. -/
def describeAll (S : Showing T C) (es : List (EventStruct T C)) : String :=
  String.join (es.map S.describe)

omit [Stdair T] in
lemma describeAll_append (es es' : List (EventStruct T C)) :
    describeAll S (es ++ es') = describeAll S es ++ describeAll S es' := by
  rw [describeAll, List.map_append, String.join_append]
  rfl

/-- The events of a type. -/
def ofType (t : T) (es : List (EventStruct T C)) : List (EventStruct T C) :=
  es.filter fun e => e.eventType = t

omit [Stdair T] in
lemma foldl_describe (es : List (EventStruct T C)) (oStr : String) :
    es.foldl (fun oStr lEvent => oStr ++ S.describe lEvent) oStr = oStr ++ describeAll S es := by
  induction es generalizing oStr with
  | nil => exact (String.append_empty).symm
  | cons e es ih =>
      rw [List.foldl_cons, ih, describeAll, describeAll, List.map_cons, String.join_cons,
        String.append_assoc]

lemma foldl_describe_ofType (t : T) (es : List (EventStruct T C)) (oStr : String) :
    es.foldl (fun oStr lEvent => if lEvent.eventType = t then oStr ++ S.describe lEvent else oStr)
      oStr = oStr ++ describeAll S (ofType t es) := by
  rw [← foldl_describe, ofType, List.foldl_filter]
  simp only [decide_eq_true_eq]

lemma list_eq (S : Showing T C) (q : EventQueue T C w) :
    q.list S = q.header ++ describeAll S q.eventList.values := foldl_describe _ _

lemma listOfType_eq (S : Showing T C) (q : EventQueue T C w) (t : T) :
    q.listOfType S t = q.header ++ ("List " ++ getLabel t ++ " events:\n")
      ++ describeAll S (ofType t q.eventList.values) := by
  rw [listOfType, foldl_describe_ofType, header]
  simp only [String.append_assoc]

/-! ### The JSON document -/

/-- The export asked for shows the event. -/
def Shows (iEventType : Option T) (e : EventStruct T C) : Prop :=
  iEventType = some e.eventType ∨ iEventType = none

instance (iEventType : Option T) (e : EventStruct T C) : Decidable (Shows iEventType e) :=
  inferInstanceAs (Decidable (_ ∨ _))

/-- The event has a text that is no JSON. -/
def Malformed (S : Showing T C) (e : EventStruct T C) : Prop :=
  S.jsonExportEventObject e ≠ "" ∧ S.readJson (S.jsonExportEventObject e) = none

instance (S : Showing T C) (e : EventStruct T C) : Decidable (Malformed S e) :=
  inferInstanceAs (Decidable (_ ≠ _ ∧ _ = none))

/-- The tree of an event; one with an empty text has none. -/
def eventTree (S : Showing T C) (e : EventStruct T C) : Option PTree :=
  if S.jsonExportEventObject e = "" then none else S.readJson (S.jsonExportEventObject e)

/-- The trees of the events that the export shows, in an array. -/
def eventTrees (S : Showing T C) (iEventType : Option T) (es : List (EventStruct T C)) :
    List (String × PTree) :=
  ((es.filter fun e => Shows iEventType e).filterMap (eventTree S)).map fun tree => ("", tree)

lemma eventTrees_append (f : Option T) (es es' : List (EventStruct T C)) :
    eventTrees S f (es ++ es') = eventTrees S f es ++ eventTrees S f es' := by
  rw [eventTrees, List.filter_append, List.filterMap_append, List.map_append]
  rfl

/-- The document with the trees of the events. -/
def eventsDocument (S : Showing T C) (iEventType : Option T) (es : List (EventStruct T C)) :
    String :=
  S.writeJson (.node "" [("events", .node "" (eventTrees S iEventType es))])

/-- **What the loop of the export collects.** -/
lemma jsonExportEvents_eq (f : Option T) (ptEvents : List (String × PTree))
    (es : List (EventStruct T C)) :
    ((∃ e ∈ es, Shows f e ∧ Malformed S e) → jsonExportEvents S f ptEvents es = none) ∧
      ((∀ e ∈ es, Shows f e → ¬ Malformed S e) →
        jsonExportEvents S f ptEvents es = some (ptEvents ++ eventTrees S f es)) := by
  induction es generalizing ptEvents with
  | nil => exact ⟨fun ⟨e, he, _⟩ => absurd he List.not_mem_nil, fun _ => by simp [eventTrees,
      jsonExportEvents]⟩
  | cons e es ih =>
      rw [List.exists_mem_cons_iff, List.forall_mem_cons, jsonExportEvents]
      have hcons : eventTrees S f (e :: es) = eventTrees S f [e] ++ eventTrees S f es :=
        eventTrees_append f [e] es
      rw [hcons]
      by_cases hshows : Shows f e
      · rw [if_pos (show f = some e.eventType ∨ f = none from hshows)]
        by_cases htext : S.jsonExportEventObject e = ""
        · have hone : eventTrees S f [e] = [] := by simp [eventTrees, hshows, eventTree, htext]
          have hmal : ¬ Malformed S e := fun h => h.1 htext
          simp only [htext, if_true, hone, List.nil_append, hmal, and_false, false_or,
            not_false_eq_true, implies_true, true_and]
          exact ih ptEvents
        · simp only [htext, if_false]
          cases hread : S.readJson (S.jsonExportEventObject e) with
          | none =>
              have hmal : Malformed S e := ⟨htext, hread⟩
              exact ⟨fun _ => rfl, fun h => absurd hmal (h.1 hshows)⟩
          | some tree =>
              have hone : eventTrees S f [e] = [("", tree)] := by
                simp [eventTrees, hshows, eventTree, htext, hread]
              have hmal : ¬ Malformed S e := fun h => absurd (h.2.symm.trans hread) (by simp)
              rw [hone, ← List.append_assoc]
              simp only [hmal, and_false, false_or, not_false_eq_true, implies_true, true_and]
              exact ih _
      · have hone : eventTrees S f [e] = [] := by simp [eventTrees, hshows]
        rw [if_neg (show ¬ (f = some e.eventType ∨ f = none) from hshows), hone, List.nil_append]
        simp only [hshows, false_and, false_or, false_imp_iff, true_and]
        exact ih ptEvents

lemma jsonExportEventQueue_eq_none (S : Showing T C) (q : EventQueue T C w) (f : Option T) :
    q.jsonExportEventQueue S f = none ↔ ∃ e ∈ q.eventList.values, Shows f e ∧ Malformed S e := by
  obtain ⟨hbad, hgood⟩ := jsonExportEvents_eq (S := S) f [] q.eventList.values
  by_cases h : ∃ e ∈ q.eventList.values, Shows f e ∧ Malformed S e
  · rw [jsonExportEventQueue, hbad h]
    exact iff_of_true rfl h
  · have hall : ∀ e ∈ q.eventList.values, Shows f e → ¬ Malformed S e := fun e he hs hm =>
      h ⟨e, he, hs, hm⟩
    rw [jsonExportEventQueue, hgood hall]
    exact iff_of_false (by simp) h

lemma jsonExportEventQueue_eq (S : Showing T C) {q : EventQueue T C w} {f : Option T}
    (h : ∀ e ∈ q.eventList.values, Shows f e → ¬ Malformed S e) :
    q.jsonExportEventQueue S f = some (eventsDocument S f q.eventList.values) := by
  rw [jsonExportEventQueue, (jsonExportEvents_eq f [] _).2 h, List.nil_append]
  rfl

/-- The handler of commands raises exactly where the export it is asked for does. -/
lemma jsonHandler_eq_none [DecidableEq J] (S : Showing T C) (I : JsonImport T J)
    (q : EventQueue T C w) (s : String) : q.jsonHandler S I s = none ↔
      I.jsonImportCommand s = some I.eventList ∧
        ∃ e ∈ q.eventList.values, Shows (I.jsonImportEventType s) e ∧ Malformed S e := by
  rw [← jsonExportEventQueue_eq_none, jsonHandler]
  cases I.jsonImportCommand s with
  | none => simp
  | some c =>
      by_cases hc : c = I.eventList
      · cases ht : I.jsonImportEventType s with
        | none => simp [hc]
        | some t => simp [hc]
      · simp [hc]

/-! ### The listings along a session -/

/-- **A listing foretells the play.** However the queue is played after a listing has been taken,
by pops, runs and selections in any order and whether or not they raise, the listing shows the
events played in the order of their play and then those that are left: in the text, in the text of
one type, and in the JSON document, which fails exactly for an event it shows whose own text is no
JSON. -/
theorem Session.listing_foretells [DecidableEq J] {ls : List (Exchange T C w)}
    (hs : Session Op.Keeps q ls q') (S : Showing T C) (I : JsonImport T J) :
    let es := popped (history ls)
    q.list S = q.header ++ describeAll S es ++ describeAll S q'.eventList.values ∧
      q'.list S = q'.header ++ describeAll S q'.eventList.values ∧
      (∀ t, q.listOfType S t = q.header ++ ("List " ++ getLabel t ++ " events:\n")
        ++ describeAll S (ofType t es) ++ describeAll S (ofType t q'.eventList.values)) ∧
      (∀ f, q.jsonExportEventQueue S f = none ↔
        ∃ e ∈ es ++ q'.eventList.values, Shows f e ∧ Malformed S e) ∧
      (∀ f, (∀ e ∈ es ++ q'.eventList.values, Shows f e → ¬ Malformed S e) →
        q.jsonExportEventQueue S f = some (S.writeJson (.node "" [("events",
          .node "" (eventTrees S f es ++ eventTrees S f q'.eventList.values))]))) ∧
      ∀ s, q.jsonHandler S I s = none ↔ I.jsonImportCommand s = some I.eventList ∧
        ∃ e ∈ es ++ q'.eventList.values, Shows (I.jsonImportEventType s) e ∧ Malformed S e := by
  intro es
  have hvalues : q.eventList.values = es ++ q'.eventList.values := hs.values_eq
  refine ⟨?_, list_eq S q', fun t => ?_, fun f => ?_, fun f hf => ?_, fun s => ?_⟩
  · rw [list_eq, hvalues, describeAll_append, String.append_assoc]
  · rw [listOfType_eq, hvalues, ofType, List.filter_append, describeAll_append,
      ← String.append_assoc]
    rfl
  · rw [← hvalues, jsonExportEventQueue_eq_none]
  · rw [← hvalues] at hf
    rw [jsonExportEventQueue_eq S hf, eventsDocument, hvalues, eventTrees_append]
  · rw [← hvalues, jsonHandler_eq_none]

/-- The events of the calendar, listed before a run and a pop. -/
theorem Session.listing_foretells_sample :
    let q : EventQueue CalendarType ℕ 32 := (EventQueue.fresh "EQ01").buildSampleQueue
      Calendar.request Calendar.requestForCRS Calendar.breakPoint1 Calendar.breakPoint2
    let ops : List (Op CalendarType ℕ) := [.run Calendar.request, .popEvent Calendar.request]
    q.list sampleShowing
        = q.header ++ describeAll sampleShowing (popped (history (q.exchanges ops)))
          ++ describeAll sampleShowing (q.after ops).eventList.values ∧
      ∀ s, q.jsonHandler sampleShowing sampleImport s = none ↔
        sampleImport.jsonImportCommand s = some sampleImport.eventList ∧
          ∃ e ∈ popped (history (q.exchanges ops)) ++ (q.after ops).eventList.values,
            Shows (sampleImport.jsonImportEventType s) e ∧ Malformed sampleShowing e := by
  intro q ops
  have hops : q.Admits Op.Keeps ops := by decide +kernel
  obtain ⟨hlist, -, -, -, -, hhandler⟩ :=
    Session.listing_foretells (session_exchanges hops) sampleShowing sampleImport
  exact ⟨hlist, hhandler⟩

end Sevmgr
