import Sevmgr.Sessions.Pending

/-!
No event is lost, overwritten or duplicated.

* `Conserved`: the contents of the events added are those of the events popped and of the events
  pending, every event lies under its own stamp, and the overall current number counts the pops.
* `Conserved.added`, `Conserved.popped`: an event added goes to the pending ones, a pop moves one of
  them to the popped ones.
* `Session.eventsConserved`: so the events are conserved along every session of calls that add and
  play events of registered types.
-/

namespace Sevmgr

open EventQueue
open scoped List

/-! ### Conservation -/

variable {T C : Type} [Stdair T] {w : ℕ} {q q' : EventQueue T C w} {h : List (Happening T C)}

/-- The events added up to now are those popped and those pending. -/
structure Conserved (h : List (Happening T C)) (q : EventQueue T C w) : Prop where
  contents : ((added h).map EventStruct.contents).Perm
    ((popped h).map EventStruct.contents ++ q.eventList.values.map EventStruct.contents)
  stamps : StampsAgree q
  count : q.progressStatus.currentNb = (popped h).length

namespace Conserved

lemma prepared (key : String) (regs : List (T × ℚ)) :
    Conserved [] (EventQueue.prepared key regs : EventQueue T C w) := by
  refine ⟨?_, stampsAgree_prepared key regs, currentNb_prepared key regs⟩
  rw [eventList_prepared]
  exact List.Perm.refl _

/-- An event added joins the pending ones, under whichever stamp. -/
lemma added (hq : Conserved h q) (e : EventStruct T C) :
    Conserved (h ++ [.added e]) (q.withEvent (q.addedStamp e) e) := by
  have hinsert := (SortedMap.insert_perm (q.addedStamp_notMem e) (e.stampedAt (q.addedStamp e))).map
    (EventStruct.contents ∘ Prod.snd)
  refine ⟨?_, hq.stamps.step (.added q e), ?_⟩
  · rw [added_append, added_added, popped_append, popped_added, List.append_nil, List.map_append]
    calc (Sevmgr.added h).map EventStruct.contents ++ [e.contents]
        ~ e.contents :: (Sevmgr.added h).map EventStruct.contents := List.perm_append_singleton _ _
      _ ~ e.contents :: ((popped h).map EventStruct.contents
            ++ q.eventList.values.map EventStruct.contents) := hq.contents.cons _
      _ ~ (popped h).map EventStruct.contents
            ++ e.contents :: q.eventList.values.map EventStruct.contents := List.perm_middle.symm
      _ ~ (popped h).map EventStruct.contents
            ++ (q.withEvent (q.addedStamp e) e).eventList.values.map EventStruct.contents := by
          refine List.Perm.append_left _ ?_
          simpa [withEvent, SortedMap.values, Function.comp_def] using hinsert.symm
  · rw [popped_append, popped_added, List.append_nil]
    exact hq.count

/-- A pop moves the first pending event to the popped ones. -/
lemma popped (hq : Conserved h q) {k : ℤ} {e : EventStruct T C}
    (hfirst : q.eventList.first? = some (k, e)) : Conserved (h ++ [.popped e]) (q.played k e) := by
  have hcontents := hq.contents
  rw [SortedMap.values_eq_cons_of_first? hfirst, List.map_cons] at hcontents
  refine ⟨?_, hq.stamps.step (.popped hfirst), ?_⟩
  · rw [added_append, added_popped, List.append_nil, popped_append, popped_popped, List.map_append,
      List.append_assoc]
    exact hcontents
  · rw [popped_append, popped_popped, List.length_append, ← hq.count]
    rfl

/-- One happening conserves the events. -/
theorem step {x : Happening T C} (hq : Conserved h q) (hx : HappensIf Op.Plays q x q') :
    Conserved (h ++ [x]) q' := by
  rcases hx.cases_of_plays with ⟨e, rfl, -, rfl⟩ | ⟨k, e, rfl, hfirst, rfl⟩
  · exact hq.added e
  · exact hq.popped hfirst

/-- Adding a list of events conserves them. -/
lemma addEvents (hq : Conserved h q) (es : List (EventStruct T C)) :
    Conserved (h ++ es.map .added) (q.addEvents es).1 := by
  induction es generalizing q h with
  | nil =>
      rw [List.map_nil, List.append_nil]
      exact hq
  | cons e es ih =>
      have := ih (hq.added e)
      rw [List.append_assoc, List.singleton_append] at this
      rwa [List.map_cons, addEvents_cons]

end Conserved

/-- **No event is lost, overwritten or duplicated** in a session that adds and plays events of
registered types: the events added are those popped and those pending, every call that is not an
insertion pops the entries of the smallest stamps in their order, and the queue is drained by as
many pops as it has events. -/
theorem Session.eventsConserved {key : String} {regs : List (T × ℚ)} {ls : List (Exchange T C w)}
    (hs : Session Op.Plays (.prepared key regs) ls q) :
    Conserved (history ls) q ∧ DrainsInSize q ∧
      ∀ ls₁ l ls₂ q₁ q₂, ls = ls₁ ++ l :: ls₂ → Session Op.Plays (.prepared key regs) ls₁ q₁ →
        Step q₁ l q₂ → (∀ e, l.1 ≠ .addEvent e) →
        q₁.eventList.entries
          = l.2.popped.map (fun e => (e.eventTimeStamp, e)) ++ q₂.eventList.entries := by
  have hconserved : Conserved (history ls) q :=
    hs.happens.history (.prepared key regs) fun _ _ _ _ hq hx => hq.step hx
  refine ⟨hconserved, hs.pendingRegistered.drainsInSize, ?_⟩
  rintro ls₁ l ls₂ q₁ q₂ rfl hs₁ hl hadd
  obtain ⟨q₁', hs₁', hrest⟩ := Run.append_iff.mp hs
  obtain rfl : q₁ = q₁' := hs₁.unique (fun _ _ _ _ h h' => h.1.2.2.symm.trans h'.1.2.2) hs₁'
  cases hrest with
  | cons hl' _ => exact hl.entries_of_plays hs₁.stampsAgree hl'.2 hadd

theorem Session.eventsConserved_sample :
    Conserved (history (sampleStart.exchanges sampleOps)) (sampleStart.after sampleOps) ∧
      DrainsInSize (sampleStart.after sampleOps) :=
  have h := Session.eventsConserved
    (session_exchanges (show sampleStart.Admits Op.Plays sampleOps by decide +kernel))
  ⟨h.1, h.2.1⟩

end Sevmgr
