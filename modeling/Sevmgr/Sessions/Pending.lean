import Sevmgr.Queue.Statuses
import Sevmgr.Sessions.Happenings

/-!
The pending events along a session.

* `StampsAgree`, `PendingRegistered`: every event lies under its own stamp, and its type has a
  progress status. One happening keeps both.
* `Removed`: what pops take out of a queue and what they count, and `removed_of_pops`, by which any
  run of pops does so. By `entries_of_pops` they are the entries of the smallest stamps.
* `OnTime`: an event as StdAir builds it.
* `Op.Plays`: the calls that add and play events of registered types, the setting of most results
  about pending events.
* `DrainsInSize`: such a queue is emptied by as many pops as it has events, none of which raises.
-/

namespace Sevmgr

open EventQueue

variable {T C : Type} [Stdair T] {w : ℕ} {q q' : EventQueue T C w}

/-! ### What is known of a pending event -/

/-- Every event lies under its own stamp. -/
def StampsAgree (q : EventQueue T C w) : Prop :=
  ∀ p ∈ q.eventList.entries, p.2.eventTimeStamp = p.1

lemma StampsAgree.step {x : Happening T C} (hq : StampsAgree q) (hx : Happens q x q') :
    StampsAgree q' := by
  intro p hp
  cases hx with
  | statusAdded t n =>
      rw [eventList_addStatus] at hp
      exact hq p hp
  | statusUpdated t n =>
      rw [eventList_updateStatus] at hp
      exact hq p hp
  | added e =>
      rcases (mem_withEvent (q.addedStamp_notMem e)).mp hp with rfl | hp
      · rfl
      · exact hq p hp
  | popped h =>
      rw [played, SortedMap.mem_erase] at hp
      exact hq p hp.1
  | cleared => exact absurd hp List.not_mem_nil

/-- The stamps of the pending events are the keys of the list. -/
lemma StampsAgree.stamps_values (hq : StampsAgree q) :
    q.eventList.values.map EventStruct.eventTimeStamp = q.eventList.keys := by
  rw [SortedMap.values, SortedMap.keys, List.map_map]
  exact List.map_congr_left hq

lemma StampsAgree.mem_entries (hq : StampsAgree q) {e : EventStruct T C}
    (he : e ∈ q.eventList.values) : (e.eventTimeStamp, e) ∈ q.eventList.entries := by
  obtain ⟨p, hp, rfl⟩ := List.mem_map.mp he
  rwa [hq p hp]

/-- Every pending event has a type with a status. -/
def PendingRegistered (q : EventQueue T C w) : Prop :=
  ∀ p ∈ q.eventList.entries, p.2.eventType ∈ q.progressStatusMap.keys

/-- Adding only events of registered types keeps every pending event of a registered type. -/
lemma PendingRegistered.step {q q' : EventQueue T C w} {x : Happening T C}
    (hq : PendingRegistered q) (hx : Happens q x q')
    (hreg : ∀ op, x.call = some op → op.Registered q) : PendingRegistered q' := by
  intro p hp
  cases hx with
  | statusAdded t n =>
      rw [eventList_addStatus] at hp
      exact (mem_keys_addStatus t n _).mpr (Or.inr (hq p hp))
  | statusUpdated t n =>
      rw [eventList_updateStatus] at hp
      rw [keys_updateStatus]
      exact hq p hp
  | added e =>
      rcases (mem_withEvent (q.addedStamp_notMem e)).mp hp with rfl | hp
      · exact hreg _ rfl
      · exact hq p hp
  | popped h =>
      rw [played, SortedMap.mem_erase] at hp
      rw [played, SortedMap.keys_modify]
      exact hq p hp.1
  | cleared => exact absurd hp List.not_mem_nil

/-! ### What pops remove -/

/-- The number of events of a type. -/
def nbOfType (t : T) (es : List (EventStruct T C)) : ℕ := es.countP fun e => e.eventType = t

lemma nbOfType_cons (t : T) (e : EventStruct T C) (es : List (EventStruct T C)) :
    nbOfType t (e :: es) = nbOfType t es + if e.eventType = t then 1 else 0 := by
  rw [nbOfType, List.countP_cons]
  simp only [decide_eq_true_eq]
  rfl

lemma nbOfType_append (t : T) (es es' : List (EventStruct T C)) :
    nbOfType t (es ++ es') = nbOfType t es + nbOfType t es' := List.countP_append

lemma nbOfType_eq_zero {t : T} {es : List (EventStruct T C)} :
    nbOfType t es = 0 ↔ ∀ e ∈ es, e.eventType ≠ t := by
  rw [nbOfType, List.countP_eq_zero]
  simp only [decide_eq_true_eq, ne_eq]

/-- The events `es`, the first ones of `q`, have been removed and counted, which makes it `q'`. -/
structure Removed (q : EventQueue T C w) (es : List (EventStruct T C)) (q' : EventQueue T C w) :
    Prop where
  events : ∃ ps, q.eventList.entries = ps ++ q'.eventList.entries ∧ ps.map Prod.snd = es
  overall : q'.progressStatus
    = { q.progressStatus with currentNb := q.progressStatus.currentNb + es.length }
  types : ∀ t, q'.progressStatusMap.find? t = (q.progressStatusMap.find? t).map
    fun s => { s with currentNb := s.currentNb + nbOfType t es }

/-- Nothing removed. -/
lemma Removed.refl (q : EventQueue T C w) : Removed q [] q :=
  ⟨⟨[], rfl, rfl⟩, rfl, fun _ => Option.map_id'.symm⟩

/-- One event more, in front of the others. -/
lemma Removed.cons {k : ℤ} {e : EventStruct T C} {es : List (EventStruct T C)}
    (hfirst : q.eventList.first? = some (k, e)) (h : Removed (q.played k e) es q') :
    Removed q (e :: es) q' := by
  obtain ⟨ps, hps, hes⟩ := h.events
  refine ⟨⟨(k, e) :: ps, ?_, ?_⟩, ?_, fun t => ?_⟩
  · rw [SortedMap.entries_eq_cons_of_first? hfirst, List.cons_append, ← hps, EventQueue.played]
  · rw [List.map_cons, hes]
  · rw [h.overall, List.length_cons, EventQueue.played, ProgressStatus.increment]
    simp only [ProgressStatus.mk.injEq, and_true]
    omega
  · rw [h.types, EventQueue.played, SortedMap.find?_modify]
    by_cases ht : t = e.eventType
    · rw [if_pos ht, ← ht, Option.map_map, nbOfType_cons, if_pos ht.symm]
      refine congrArg (Option.map · _) (funext fun s => ?_)
      simp only [Function.comp_apply, ProgressStatus.increment, ProgressStatus.mk.injEq, and_true]
      omega
    · rw [if_neg ht, nbOfType_cons, if_neg (Ne.symm ht), Nat.add_zero]

/-- **A run of pops removes and counts the events it records.** -/
theorem removed_of_pops {G : EventQueue T C w → Op T C → Prop} {es : List (EventStruct T C)}
    (h : Run (HappensIf G) q (es.map .popped) q') : Removed q es q' := by
  induction es generalizing q with
  | nil =>
      cases h
      exact .refl _
  | cons e es ih =>
      rw [List.map_cons] at h
      cases h with
      | cons hx h =>
          cases hx.1 with
          | popped hfirst => exact .cons hfirst (ih h)

/-- A run of pops takes the first entries of the list, in their order. -/
theorem entries_of_pops {G : EventQueue T C w → Op T C → Prop} {es : List (EventStruct T C)}
    (hq : StampsAgree q) (h : Run (HappensIf G) q (es.map .popped) q') :
    q.eventList.entries
      = es.map (fun e => (e.eventTimeStamp, e)) ++ q'.eventList.entries := by
  obtain ⟨ps, hps, rfl⟩ := (removed_of_pops h).events
  have hown : ∀ p ∈ ps, (p.2.eventTimeStamp, p.2) = id p := fun p hp =>
    Prod.ext (hq p (by rw [hps]; exact List.mem_append_left _ hp)) rfl
  have hstamps : (ps.map Prod.snd).map (fun e => (e.eventTimeStamp, e)) = ps := by
    rw [List.map_map]
    exact (List.map_congr_left hown).trans (List.map_id ps)
  rw [hps, hstamps]

/-! ### Calls that add and play events -/

/-- The date-time of the event is a whole number of milliseconds after the oldest one, and that
number is the stamp it requests. -/
def OnTime (e : EventStruct T C) : Prop :=
  e.eventTime = defaultEventOldestDateTime T + 1000 * e.eventTimeStamp

instance (e : EventStruct T C) : Decidable (OnTime e) :=
  inferInstanceAs (Decidable (e.eventTime = defaultEventOldestDateTime T + 1000 * e.eventTimeStamp))

/-- The call adds an event of a registered type or plays events. -/
def Op.Plays (q : EventQueue T C w) (op : Op T C) : Prop := op.Registered q ∧ op.Playing

instance (q : EventQueue T C w) (op : Op T C) : Decidable (op.Plays q) :=
  inferInstanceAs (Decidable (op.Registered q ∧ op.Playing))

/-- A happening of these calls adds an event or pops one. -/
lemma HappensIf.cases_of_plays {x : Happening T C} (h : HappensIf Op.Plays q x q') :
    (∃ e, x = .added e ∧ e.eventType ∈ q.progressStatusMap.keys ∧
        q' = q.withEvent (q.addedStamp e) e) ∨
      ∃ k e, x = .popped e ∧ q.eventList.first? = some (k, e) ∧ q' = q.played k e := by
  obtain ⟨hx, hcall⟩ := h
  cases hx with
  | statusAdded t n => exact (hcall _ rfl).2.elim
  | statusUpdated t n => exact (hcall _ rfl).2.elim
  | added e => exact Or.inl ⟨e, rfl, (hcall _ rfl).1, rfl⟩
  | popped hfirst => exact Or.inr ⟨_, _, rfl, hfirst, rfl⟩
  | cleared => exact (hcall _ rfl).2.elim

/-- The calls other than `addEvent` pop the first entries of the list. -/
lemma Step.entries_of_plays {l : Exchange T C w} (hq : StampsAgree q) (h : Step q l q')
    (hplays : l.1.Plays q) (hadd : ∀ e, l.1 ≠ .addEvent e) :
    q.eventList.entries
      = l.2.popped.map (fun e => (e.eventTimeStamp, e)) ++ q'.eventList.entries := by
  have hrun := h.happens hplays
  obtain ⟨op, eff⟩ := l
  cases op with
  | addEvent e => exact absurd rfl (hadd e)
  | popEvent e => exact entries_of_pops hq hrun
  | run e => exact entries_of_pops hq hrun
  | select e d => exact entries_of_pops hq hrun
  | addStatus t n => exact hplays.2.elim
  | updateStatus t n => exact hplays.2.elim
  | reset => exact hplays.2.elim

/-! ### The queue before any event is added -/

@[simp] lemma eventList_prepared (key : String) (regs : List (T × ℚ)) :
    (prepared key regs : EventQueue T C w).eventList = .empty := by
  refine List.foldlRecOn (motive := fun q : EventQueue T C w => q.eventList = .empty) regs _ rfl ?_
  intro q hq r _
  rw [eventList_addStatus, hq]

@[simp] lemma currentNb_prepared (key : String) (regs : List (T × ℚ)) :
    (prepared key regs : EventQueue T C w).progressStatus.currentNb = 0 := by
  refine List.foldlRecOn (motive := fun q : EventQueue T C w => q.progressStatus.currentNb = 0)
    regs _ rfl ?_
  intro q hq r _
  rw [progressStatus_addStatus]
  exact hq

lemma notMem_entries_prepared (key : String) (regs : List (T × ℚ)) (p : ℤ × EventStruct T C) :
    p ∉ (prepared key regs : EventQueue T C w).eventList.entries := by
  rw [eventList_prepared]
  exact List.not_mem_nil

lemma stampsAgree_prepared (key : String) (regs : List (T × ℚ)) :
    StampsAgree (prepared key regs : EventQueue T C w) :=
  fun p hp => absurd hp (notMem_entries_prepared key regs p)

lemma pendingRegistered_prepared (key : String) (regs : List (T × ℚ)) :
    PendingRegistered (prepared key regs : EventQueue T C w) :=
  fun p hp => absurd hp (notMem_entries_prepared key regs p)

/-- Along a session every event lies under its own stamp. -/
lemma Session.stampsAgree {G : EventQueue T C w → Op T C → Prop} {key : String}
    {regs : List (T × ℚ)} {ls : List (Exchange T C w)} (hs : Session G (.prepared key regs) ls q) :
    StampsAgree q :=
  hs.happens.invariant (fun _ _ _ hq hx => hq.step hx.1) (stampsAgree_prepared key regs)

/-- Along a session that adds and plays events of registered types every event has such a type. -/
lemma Session.pendingRegistered {key : String} {regs : List (T × ℚ)} {ls : List (Exchange T C w)}
    (hs : Session Op.Plays (.prepared key regs) ls q) : PendingRegistered q :=
  hs.happens.invariant (fun _ _ _ hq hx => hq.step hx.1 fun op hop => (hx.2 op hop).1)
    (pendingRegistered_prepared key regs)

/-! ### Draining -/

/-- Pops return as long as there are events, and the queue is done after as many of them as it
had events, not earlier. -/
def DrainsInSize (q : EventQueue T C w) : Prop :=
  ∀ ios : List (EventStruct T C), ios.length ≤ q.eventList.size →
    (∀ l ∈ q.exchanges (ios.map .popEvent), ∃ s, l.2.outcome = .returned s) ∧
      ((q.after (ios.map .popEvent)).isQueueDone = true ↔ ios.length = q.eventList.size)

/-- A pop from a queue that is not empty. -/
lemma popEvent_of_pendingRegistered (hq : PendingRegistered q) (hne : q.eventList ≠ .empty)
    (io : EventStruct T C) : ∃ k e s, q.eventList.first? = some (k, e) ∧
      q.popEvent io = ⟨.returned s, q.played k e, e, [e]⟩ := by
  obtain ⟨k, e, hfirst⟩ := SortedMap.exists_first? hne
  obtain ⟨s, hs⟩ := SortedMap.exists_find? (hq _ (SortedMap.mem_of_first? hfirst))
  exact ⟨k, e, _, hfirst, popEvent_of_registered hfirst hs io⟩

lemma PendingRegistered.played (hq : PendingRegistered q) {k : ℤ} {e : EventStruct T C}
    (hfirst : q.eventList.first? = some (k, e)) : PendingRegistered (q.played k e) :=
  hq.step (.popped hfirst) fun _ hc => by simp [Happening.call] at hc

lemma PendingRegistered.pops {ios : List (EventStruct T C)} (hq : PendingRegistered q)
    (hios : ios.length ≤ q.eventList.size) :
    (∀ l ∈ q.exchanges (ios.map .popEvent), ∃ s, l.2.outcome = .returned s) ∧
      (q.after (ios.map .popEvent)).eventList.size + ios.length = q.eventList.size := by
  induction ios generalizing q with
  | nil => exact ⟨fun l hl => absurd hl List.not_mem_nil, rfl⟩
  | cons io ios ih =>
      rw [List.length_cons] at hios
      have hne : q.eventList ≠ .empty := by
        intro he
        rw [he, SortedMap.size_empty] at hios
        omega
      obtain ⟨k, e, s, hfirst, hpop⟩ := popEvent_of_pendingRegistered hq hne io
      have hsize := SortedMap.size_erase_first hfirst
      have hexec : (Op.popEvent io).exec q
          = ⟨.returned (.statuses s), q.played k e, some e, [e]⟩ := by
        rw [Op.exec, hpop]
        rfl
      obtain ⟨hret, hafter⟩ := ih (hq.played hfirst) (show ios.length ≤ (q.eventList.erase k).size
        by omega)
      refine ⟨?_, ?_⟩
      · intro l hl
        rw [List.map_cons, exchanges, hexec, List.mem_cons] at hl
        rcases hl with rfl | hl
        · exact ⟨_, rfl⟩
        · exact hret l hl
      · rw [List.map_cons, after, List.foldl_cons, hexec, List.length_cons, ← hsize]
        show (after (q.played k e) _).eventList.size + _ = _
        rw [← add_assoc, hafter]
        rfl

/-- **Draining a queue takes as many pops as it has events.** -/
theorem PendingRegistered.drainsInSize (hq : PendingRegistered q) : DrainsInSize q := by
  intro ios hios
  obtain ⟨hret, hsize⟩ := hq.pops hios
  refine ⟨hret, ?_⟩
  rw [isQueueDone_eq_true, ← SortedMap.size_eq_zero]
  omega

end Sevmgr
