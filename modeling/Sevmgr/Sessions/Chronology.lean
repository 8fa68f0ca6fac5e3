import Sevmgr.Sessions.Conservation

/-!
The order of play of a queue that is first filled and then drained.

The queue plays its events by stamp, and an insertion may move an event past others. So the
date-times of the events played may decrease, and they do so exactly when an insertion moves an
event past one of a later date-time.

* `values_eq_of_pops`: pops play the events in the order of the list, all of them when they leave
  nothing.
* `Packed`: while nothing is popped, every stamp between the date-time of an event and its stamp is
  taken.
* `Chronological` and `Overtakes`: the order of the date-times, and an insertion that spoils it.
  `chronological_withEvent` relates them for one insertion, `chronological_addEvents` for a list of
  them.
* `played_by_stamp`: what draining a filled queue plays. `not_played_by_date_time` is a queue whose
  date-times decrease.
-/

namespace Sevmgr

open EventQueue

variable {T C : Type} [Stdair T] {w : ℕ} {q : EventQueue T C w}

/-! ### Draining -/

/-- The events played by the pops of the list of incoming events. -/
def playedBy (q : EventQueue T C w) (ios : List (EventStruct T C)) : List (EventStruct T C) :=
  popped (history (q.exchanges (ios.map .popEvent)))

/-- Pops play the events in the order of the list. -/
lemma values_eq_of_pops (q : EventQueue T C w) (ios : List (EventStruct T C)) :
    q.eventList.values = playedBy q ios ++ (q.after (ios.map .popEvent)).eventList.values := by
  induction ios generalizing q with
  | nil => rfl
  | cons io ios ih =>
      have hne : ((Op.popEvent io).exec q).outcome ≠ .aborted := fun h =>
        q.popEvent_not_aborted io (Outcome.map_eq_aborted.mp h)
      have hcons : playedBy q (io :: ios)
          = (q.popEvent io).popped ++ playedBy (q.popEvent io).queue ios := by
        rw [playedBy, List.map_cons, exchanges_cons hne, history, List.flatMap_cons, popped_append]
        refine congrArg (· ++ _) ?_
        show popped ((q.popEvent io).popped.map .popped) = (q.popEvent io).popped
        exact popped_map_popped _
      have hrest := ih (q.popEvent io).queue
      rw [hcons, List.append_assoc]
      show q.eventList.values = (q.popEvent io).popped ++ (playedBy (q.popEvent io).queue ios
        ++ ((q.popEvent io).queue.after (ios.map .popEvent)).eventList.values)
      rw [← hrest]
      cases hf : q.eventList.first? with
      | none => rw [popEvent_of_empty (SortedMap.first?_eq_none.mp hf), List.nil_append]
      | some p =>
          obtain ⟨hq, -, hes⟩ := popEvent_of_first (e := p.2) (k := p.1) hf io
          rw [hq, hes]
          exact SortedMap.values_eq_cons_of_first? hf

/-- Once nothing is left, every event has been played. -/
lemma playedBy_of_done {ios : List (EventStruct T C)}
    (hdone : (q.after (ios.map .popEvent)).isQueueDone = true) :
    playedBy q ios = q.eventList.values := by
  rw [values_eq_of_pops q ios, isQueueDone_eq_true.mp hdone, SortedMap.values_empty,
    List.append_nil]

/-! ### Filling -/

/-- Every stamp from the date-time of an event to the stamp under which it lies is taken. -/
def Packed (q : EventQueue T C w) : Prop :=
  ∀ p ∈ q.eventList.entries, ∃ t, p.2.eventTime = defaultEventOldestDateTime T + 1000 * t ∧
    t ≤ p.1 ∧ ∀ s, t ≤ s → s < p.1 → s ∈ q.eventList.keys

/-- An insertion keeps every stamp taken that was. -/
lemma Packed.withEvent (hq : Packed q) {e : EventStruct T C} (he : OnTime e) :
    Packed (q.withEvent (q.addedStamp e) e) := by
  have hkeys : ∀ s ∈ q.eventList.keys, s ∈ (q.withEvent (q.addedStamp e) e).eventList.keys :=
    fun s hs => (SortedMap.mem_keys_insert (q.addedStamp_notMem e)).mpr (Or.inr hs)
  intro p hp
  rcases (mem_withEvent (q.addedStamp_notMem e)).mp hp with rfl | hp
  · exact ⟨e.eventTimeStamp, he, q.le_addedStamp e, fun s hs hlt =>
      hkeys s ((q.isNearestFree_addedStamp e).taken hs hlt)⟩
  · obtain ⟨t, ht, hle, htaken⟩ := hq p hp
    exact ⟨t, ht, hle, fun s hs hlt => hkeys s (htaken s hs hlt)⟩

/-- The events lie in the order of their date-times. -/
def Chronological (q : EventQueue T C w) : Prop :=
  ∀ p ∈ q.eventList.entries, ∀ p' ∈ q.eventList.entries, p.1 < p'.1 → p.2.eventTime ≤ p'.2.eventTime

/-- Adding the event moves it from the stamp it requests past a pending event of a later date-time.
-/
def Overtakes (q : EventQueue T C w) (e : EventStruct T C) : Prop :=
  ∃ p ∈ q.eventList.entries, e.eventTimeStamp ≤ p.1 ∧ p.1 < q.addedStamp e ∧
    e.eventTime < p.2.eventTime

/-- An event of an earlier date-time lies under an earlier stamp than an event just added: had it
been moved past that stamp, the stamp would not have been free. -/
lemma Packed.eventTime_le (hq : Packed q) {e : EventStruct T C} (he : OnTime e)
    {p : ℤ × EventStruct T C} (hp : p ∈ q.eventList.entries) (hlt : q.addedStamp e < p.1) :
    e.eventTime ≤ p.2.eventTime := by
  obtain ⟨t, ht, -, htaken⟩ := hq p hp
  by_contra hgt
  have hle := q.le_addedStamp e
  rw [ht, he, not_le] at hgt
  exact q.addedStamp_notMem e (htaken _ (by linarith) hlt)

/-- An insertion keeps the chronological order exactly when it does not overtake. -/
lemma chronological_withEvent (hq : Packed q) {e : EventStruct T C} (he : OnTime e) :
    Chronological (q.withEvent (q.addedStamp e) e) ↔ Chronological q ∧ ¬ Overtakes q e := by
  have hmem := fun p => mem_withEvent (q.addedStamp_notMem e) (e := e) (p := p)
  refine ⟨?_, ?_⟩
  · intro hc
    refine ⟨fun p hp p' hp' hlt =>
      hc p ((hmem p).mpr (Or.inr hp)) p' ((hmem p').mpr (Or.inr hp')) hlt, ?_⟩
    rintro ⟨p, hp, -, hlt, htime⟩
    have := hc p ((hmem p).mpr (Or.inr hp)) _ ((hmem _).mpr (Or.inl rfl)) hlt
    exact absurd this (not_le.mpr htime)
  · rintro ⟨hc, hnot⟩ p hp p' hp' hlt
    rcases (hmem p).mp hp with rfl | hp
    · rcases (hmem p').mp hp' with rfl | hp'
      · exact absurd hlt (lt_irrefl _)
      · exact hq.eventTime_le he hp' hlt
    · rcases (hmem p').mp hp' with rfl | hp'
      · by_contra hgt
        rw [not_le, EventStruct.eventTime_stampedAt] at hgt
        -- the event is of a later date-time, so it lies after the requested stamp
        obtain ⟨t, ht, hle, -⟩ := hq p hp
        have htime := hgt
        rw [ht, he] at htime
        exact hnot ⟨p, hp, by linarith, hlt, hgt⟩
      · exact hc p hp p' hp' hlt

/-- Filling a queue keeps the chronological order exactly when no insertion overtakes. -/
theorem chronological_addEvents {es : List (EventStruct T C)} (hq : Packed q)
    (hes : ∀ e ∈ es, OnTime e) :
    (Packed (q.addEvents es).1) ∧ (Chronological (q.addEvents es).1 ↔ Chronological q ∧
      ∀ es₁ e es₂, es = es₁ ++ e :: es₂ → ¬ Overtakes (q.addEvents es₁).1 e) := by
  induction es generalizing q with
  | nil => exact ⟨hq, fun hc => ⟨hc, by simp⟩, fun hc => hc.1⟩
  | cons e es ih =>
      have he : OnTime e := hes e List.mem_cons_self
      obtain ⟨hpacked, hiff⟩ := ih (hq.withEvent he) fun e he => hes e (List.mem_cons_of_mem _ he)
      rw [addEvents_cons]
      refine ⟨hpacked, hiff.trans ?_⟩
      rw [chronological_withEvent hq he, and_assoc]
      refine and_congr_right fun _ => ⟨fun ⟨hnot, hrest⟩ es₁ e' es₂ heq => ?_, fun hall => ⟨?_, ?_⟩⟩
      · cases es₁ with
        | nil =>
            rw [← (List.cons.inj heq).1]
            exact hnot
        | cons e₁ es₁ =>
            rw [← (List.cons.inj heq).1, addEvents_cons]
            exact hrest es₁ e' es₂ (List.cons.inj heq).2
      · exact hall [] e es rfl
      · intro es₁ e' es₂ heq
        rw [← addEvents_cons]
        exact hall (e :: es₁) e' es₂ (by rw [heq, List.cons_append])

/-! ### Filling and draining -/

lemma packed_prepared (key : String) (regs : List (T × ℚ)) :
    Packed (prepared key regs : EventQueue T C w) :=
  fun p hp => absurd hp (notMem_entries_prepared key regs p)

lemma chronological_prepared (key : String) (regs : List (T × ℚ)) :
    Chronological (prepared key regs : EventQueue T C w) :=
  fun p hp => absurd hp (notMem_entries_prepared key regs p)

/-- The date-times of the list are in order exactly when the queue is chronological. -/
lemma pairwise_eventTime_values : (q.eventList.values.map EventStruct.eventTime).Pairwise (· ≤ ·) ↔
    Chronological q := by
  rw [SortedMap.values, List.map_map, List.pairwise_map]
  exact SortedMap.pairwise_entries

/-- **The order of play.** Let a queue without events be filled with events whose date-times are
whole milliseconds after the oldest one, and then be drained. It plays the events that were added,
in strictly increasing order of their stamps, none before its own date-time. Their date-times never
decrease if and only if no insertion moved an event past a pending one of a later date-time. -/
theorem played_by_stamp {key : String} {regs : List (T × ℚ)} {es ios : List (EventStruct T C)}
    (hes : ∀ e ∈ es, OnTime e) {q : EventQueue T C w}
    (hq : ((prepared key regs : EventQueue T C w).addEvents es).1 = q)
    (hdone : (q.after (ios.map .popEvent)).isQueueDone = true) :
    ((playedBy q ios).map EventStruct.contents).Perm (es.map EventStruct.contents) ∧
      ((playedBy q ios).map EventStruct.eventTimeStamp).Pairwise (· < ·) ∧
      (∀ e ∈ playedBy q ios,
        e.eventTime ≤ defaultEventOldestDateTime T + 1000 * e.eventTimeStamp) ∧
      (((playedBy q ios).map EventStruct.eventTime).Pairwise (· ≤ ·) ↔
        ∀ es₁ e es₂, es = es₁ ++ e :: es₂ →
          ¬ Overtakes ((prepared key regs : EventQueue T C w).addEvents es₁).1 e) := by
  have hconserved := (Conserved.prepared (w := w) key regs).addEvents es
  obtain ⟨hpacked, hiff⟩ := chronological_addEvents (packed_prepared key regs) hes
  rw [hq] at hconserved hpacked hiff
  have hcontents := hconserved.contents
  rw [List.nil_append, added_map_added, popped_map_added, List.map_nil, List.nil_append]
    at hcontents
  rw [playedBy_of_done hdone]
  refine ⟨hcontents.symm, ?_, fun e he => ?_, ?_⟩
  · rw [hconserved.stamps.stamps_values]
    exact q.eventList.sorted
  · obtain ⟨p, hp, rfl⟩ := List.mem_map.mp he
    obtain ⟨t, ht, hle, -⟩ := hpacked p hp
    rw [ht, hconserved.stamps p hp]
    linarith
  · rw [pairwise_eventTime_values, hiff]
    exact and_iff_right (chronological_prepared key regs)

/-- A booking request of the second millisecond, then two of the first one. -/
def sampleCrowd : List (EventStruct SampleType ℕ) :=
  [sampleEvent .bkgReq 1 1, sampleEvent .bkgReq 0 2, sampleEvent .bkgReq 0 3]

theorem played_by_stamp_sample :
    let q := (sampleStart.addEvents sampleCrowd).1
    ((playedBy q sampleCrowd).map EventStruct.eventTimeStamp).Pairwise (· < ·) :=
  (played_by_stamp (show ∀ e ∈ sampleCrowd, OnTime e by decide +kernel) rfl (by decide +kernel)).2.1

/-- The third event is moved past the first one, whose date-time is later. -/
theorem not_played_by_date_time : ∃ es ios : List (EventStruct SampleType ℕ),
    (∀ e ∈ es, OnTime e ∧ e.eventType ∈ sampleStart.progressStatusMap.keys) ∧
      ((sampleStart.addEvents es).1.after (ios.map .popEvent)).isQueueDone = true ∧
      ¬ ((playedBy (sampleStart.addEvents es).1 ios).map EventStruct.eventTime).Pairwise
        (· ≤ ·) := by
  refine ⟨sampleCrowd, sampleCrowd, ?_, ?_, ?_⟩ <;> decide +kernel

end Sevmgr
