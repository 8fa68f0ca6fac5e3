import Sevmgr.Library.NearestFree
import Sevmgr.Model.Sample

/-!
What `EventQueue::addEvent` does: it gives the event the nearest free stamp and stores it there.

* `addEvent_eq`: the call returns `true`, and it changes nothing but the event list, which receives
  the event at the stamp `addedStamp`, and the stamp of the event itself.
* `isNearestFree_addedStamp`: that stamp is the first one, from the requested stamp on, that the
  list leaves free. `addEvent_nearest` puts this together with the rounds of the retry loop.
* `addEvents` and `addEvents_keys_perm`: a list of events added one after the other occupies stamps
  that do not depend on the order of the list.
-/

namespace Sevmgr

namespace EventQueue

variable {T C : Type}

/-! ### The retry loop -/

/-- An attempt at a taken stamp changes nothing. -/
lemma tryInsert_of_mem {l : SortedMap ℤ (EventStruct T C)} {e : EventStruct T C}
    (h : e.eventTimeStamp ∈ l.keys) : tryInsert l e = ⟨false, l, e⟩ := by
  rw [tryInsert, SortedMap.insert_of_mem h]

/-- The loop is left with the event stored at the nearest free stamp. Backwards from its exit, every
round extends the probe by the taken stamp it started from. -/
lemma exec_addEventLoop (l : SortedMap ℤ (EventStruct T C)) (e : EventStruct T C) :
    ∃ k, IsNearestFree l.keySet e.eventTimeStamp k ∧
      (addEventLoop 0).exec (tryInsert l e)
        = ⟨true, (l.insert k (e.stampedAt k)).1, e.stampedAt k⟩ := by
  refine (addEventLoop 0).exec_induction (P := fun v v' => ∀ e : EventStruct T C,
    v = tryInsert l e → ∃ k, IsNearestFree l.keySet e.eventTimeStamp k ∧
      v' = ⟨true, (l.insert k (e.stampedAt k)).1, e.stampedAt k⟩) ?_ ?_ (tryInsert l e) e rfl
  · rintro _ hexit e rfl
    have hok : (tryInsert l e).insertionSucceeded = true := by simpa [addEventLoop] using hexit
    refine ⟨e.eventTimeStamp, .self (SortedMap.insert_snd.mp hok), ?_⟩
    rw [e.stampedAt_self, ← hok]
    rfl
  · rintro _ v' hc ih e rfl
    have htaken : e.eventTimeStamp ∈ l.keys := by
      by_contra hfree
      have hok : (tryInsert l e).insertionSucceeded = true := SortedMap.insert_snd.mpr hfree
      simp [addEventLoop, hok] at hc
    rw [tryInsert_of_mem htaken] at ih
    obtain ⟨k, hk, hv'⟩ := ih e.incrementEventTimeStamp rfl
    exact ⟨k, .of_taken htaken hk, hv'⟩

/-- The loop is left after one round for each of the stamps taken in a row from the requested one,
although its counter stands still. -/
lemma makesRounds_addEventLoop {l : SortedMap ℤ (EventStruct T C)} {e : EventStruct T C} {n : ℕ}
    (h : TakenInARow l.keySet e.eventTimeStamp n) :
    (addEventLoop 0).MakesRounds (tryInsert l e) n := by
  induction n generalizing e with
  | zero =>
      have hok : (tryInsert l e).insertionSucceeded = true :=
        SortedMap.insert_snd.mpr (by simpa using h.2)
      rw [WhileLoop.makesRounds_zero]
      simp [addEventLoop, hok]
  | succ n ih =>
      have htaken : e.eventTimeStamp ∈ l.keys := by simpa using h.1 0 (Nat.succ_pos n)
      have hnext : TakenInARow l.keySet e.incrementEventTimeStamp.eventTimeStamp n := by
        refine ⟨fun i hi => ?_, ?_⟩
        · have hi' := h.1 (i + 1) (by omega)
          rwa [Nat.cast_add, Nat.cast_one, add_comm (i : ℤ), ← add_assoc] at hi'
        · have hn := h.2
          rwa [Nat.cast_add, Nat.cast_one, add_comm (n : ℤ), ← add_assoc] at hn
      rw [tryInsert_of_mem htaken]
      exact WhileLoop.makesRounds_succ _ rfl (ih hnext)

/-! ### One event -/

variable [Stdair T] {w : ℕ}

/-- The stamp under which `addEvent` stores the event. -/
def addedStamp (q : EventQueue T C w) (e : EventStruct T C) : ℤ :=
  (q.addEvent e).event.eventTimeStamp

/-- **The stamp given to an event** is the nearest free one at or after the requested one. -/
theorem isNearestFree_addedStamp (q : EventQueue T C w) (e : EventStruct T C) :
    IsNearestFree q.eventList.keySet e.eventTimeStamp (q.addedStamp e) := by
  obtain ⟨k, hk, hv⟩ := exec_addEventLoop q.eventList e
  simpa [addedStamp, addEvent, hv] using hk

/-- The event list after the event has been stored. -/
def withEvent (q : EventQueue T C w) (k : ℤ) (e : EventStruct T C) : EventQueue T C w :=
  { q with eventList := (q.eventList.insert k (e.stampedAt k)).1 }

/-- **What `addEvent` does.** -/
theorem addEvent_eq (q : EventQueue T C w) (e : EventStruct T C) :
    q.addEvent e
      = ⟨.returned true, q.withEvent (q.addedStamp e) e, e.stampedAt (q.addedStamp e), []⟩ := by
  obtain ⟨k, -, hv⟩ := exec_addEventLoop q.eventList e
  have hk : q.addedStamp e = k := by simp [addedStamp, addEvent, hv]
  rw [hk]
  simp [addEvent, withEvent, hv]

lemma le_addedStamp (q : EventQueue T C w) (e : EventStruct T C) :
    e.eventTimeStamp ≤ q.addedStamp e := (q.isNearestFree_addedStamp e).le

lemma addedStamp_notMem (q : EventQueue T C w) (e : EventStruct T C) :
    q.addedStamp e ∉ q.eventList.keys := (q.isNearestFree_addedStamp e).free

lemma mem_withEvent {q : EventQueue T C w} {k : ℤ} (hk : k ∉ q.eventList.keys) {e : EventStruct T C}
    {p : ℤ × EventStruct T C} :
    p ∈ (q.withEvent k e).eventList.entries ↔ p = (k, e.stampedAt k) ∨ p ∈ q.eventList.entries :=
  SortedMap.mem_insert hk

/-- The requested stamp and the one given are as far apart as there are stamps taken in between. -/
lemma exists_takenInARow (q : EventQueue T C w) (e : EventStruct T C) :
    ∃ n : ℕ, TakenInARow q.eventList.keySet e.eventTimeStamp n ∧
      q.addedStamp e = e.eventTimeStamp + n := by
  obtain ⟨n, hn⟩ := Int.le.dest (q.le_addedStamp e)
  exact ⟨n, takenInARow_iff.mpr (hn ▸ q.isNearestFree_addedStamp e), hn.symm⟩

/-- **`addEvent` finds the nearest free stamp.** Its loop comes to an end, after as many rounds as
there are stamps taken in a row from the requested one, and the call returns `true`. The event lies
under the least free stamp that is not before the requested one, it bears that stamp in the queue
and in the hands of the caller, and nothing else has changed. -/
theorem addEvent_nearest (q : EventQueue T C w) (e : EventStruct T C) :
    ∃ k, ∃ n : ℕ, IsLeast {x | e.eventTimeStamp ≤ x ∧ x ∉ q.eventList.keys} k ∧
      (∀ i < n, e.eventTimeStamp + (i : ℕ) ∈ q.eventList.keys) ∧
      e.eventTimeStamp + n ∉ q.eventList.keys ∧ k - e.eventTimeStamp = n ∧
      (addEventLoop 0).MakesRounds (tryInsert q.eventList e) n ∧
      (q.addEvent e).outcome = .returned true ∧
      (q.addEvent e).event = e.stampedAt k ∧
      (∀ x, (q.addEvent e).queue.eventList.find? x
        = if x = k then some (e.stampedAt k) else q.eventList.find? x) ∧
      (q.addEvent e).queue.progressStatus = q.progressStatus ∧
      (q.addEvent e).queue.progressStatusMap = q.progressStatusMap := by
  obtain ⟨n, htaken, hk⟩ := q.exists_takenInARow e
  refine ⟨q.addedStamp e, n, q.isNearestFree_addedStamp e, htaken.1, htaken.2, by omega,
    makesRounds_addEventLoop htaken, ?_⟩
  rw [addEvent_eq]
  exact ⟨rfl, rfl, SortedMap.find?_insert (q.addedStamp_notMem e) _, rfl, rfl⟩

/-! ### Several events -/

/-- The events of a list added one after the other, with what the calls return. -/
def addEvents (q : EventQueue T C w) :
    List (EventStruct T C) → EventQueue T C w × List (Outcome T Bool)
  | [] => (q, [])
  | e :: es =>
      let c := q.addEvent e
      let r := c.queue.addEvents es
      (r.1, c.outcome :: r.2)

lemma addEvents_cons (q : EventQueue T C w) (e : EventStruct T C) (es : List (EventStruct T C)) :
    (q.addEvents (e :: es)).1 = ((q.withEvent (q.addedStamp e) e).addEvents es).1 := by
  rw [addEvents, addEvent_eq]

/-- The requests of a list of events are served one after the other. -/
lemma serves_addEvents (q : EventQueue T C w) (es : List (EventStruct T C)) :
    Serves q.eventList.keySet (es.map EventStruct.eventTimeStamp)
      (q.addEvents es).1.eventList.keySet := by
  induction es generalizing q with
  | nil => exact .nil _
  | cons e es ih =>
      refine .cons (q.isNearestFree_addedStamp e) ?_
      have := ih (q.withEvent (q.addedStamp e) e)
      rw [addEvents_cons]
      rwa [withEvent, SortedMap.keySet_insert (q.addedStamp_notMem e)] at this

lemma addEvents_outcomes (q : EventQueue T C w) (es : List (EventStruct T C)) :
    ∀ o ∈ (q.addEvents es).2, o = .returned true := by
  induction es generalizing q with
  | nil => simp [addEvents]
  | cons e es ih =>
      intro o ho
      rw [addEvents, List.mem_cons] at ho
      rcases ho with rfl | ho
      · rw [addEvent_eq]
      · exact ih _ o ho

/-- **Order of insertion does not change which stamps are occupied**: a list of events and any
permutation of it are added with success throughout and leave event lists with the same keys. -/
theorem addEvents_keys_perm (q : EventQueue T C w) {es es' : List (EventStruct T C)}
    (hp : es.Perm es') :
    (∀ o ∈ (q.addEvents es).2, o = .returned true) ∧
      (∀ o ∈ (q.addEvents es').2, o = .returned true) ∧
      (q.addEvents es).1.eventList.keys = (q.addEvents es').1.eventList.keys := by
  refine ⟨q.addEvents_outcomes es, q.addEvents_outcomes es', ?_⟩
  have hset := Serves.perm q.eventList.finite_keySet (hp.map _) (q.serves_addEvents es)
    (q.serves_addEvents es')
  exact SortedMap.keys_eq_of_keySet_eq hset

/-- Two booking requests of the same millisecond and a break point of the next one, in two orders.
-/
theorem addEvents_keys_perm_swap :
    let q : EventQueue SampleType ℕ 32 := fresh "EQ01"
    let es := [sampleEvent .bkgReq 0 1, sampleEvent .bkgReq 0 2, sampleEvent .brkPt 1 3]
    let es' := [sampleEvent .bkgReq 0 2, sampleEvent .bkgReq 0 1, sampleEvent .brkPt 1 3]
    (∀ o ∈ (q.addEvents es).2, o = .returned true) ∧
      (∀ o ∈ (q.addEvents es').2, o = .returned true) ∧
      (q.addEvents es).1.eventList.keys = (q.addEvents es').1.eventList.keys :=
  addEvents_keys_perm (fresh "EQ01") (List.Perm.swap _ _ _)

end EventQueue

end Sevmgr
