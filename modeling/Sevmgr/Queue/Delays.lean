import Sevmgr.Library.Schedule
import Sevmgr.Queue.AddEvent

/-!
How late `EventQueue::addEvent` makes a list of events, compared with any other way to find them
stamps of their own.

* `addedStamps`: the stamps given to the events of a list, added one after the other.
  `servesAs_addedStamps` has them given by probing, and `perm_addEvents` finds the events under
  them.
* `late_addedStamps`: no event is moved by as many milliseconds as there are events.
* `exists_sorted_addEvents`, `first_addEvents`: the events added to an empty queue, and the first of
  them.
* `totalDelay`: the sum of the milliseconds by which the events of a list are moved.
* `addEvents_least`: no other choice of stamps leaves fewer events to come at any time or moves the
  events by less in total.
-/

namespace Sevmgr

namespace EventQueue

variable {T C : Type} [Stdair T] {w : ℕ}

/-- The stamps taken in a row are those of different events. -/
lemma takenInARow_le {q : EventQueue T C w} {t : ℤ} {m : ℕ}
    (h : TakenInARow q.eventList.keySet t m) :
    m ≤ q.eventList.size := by
  have hnodup : ((List.range m).map fun i : ℕ => t + i).Nodup :=
    List.nodup_range.map fun i j hij => by simpa using hij
  have hsub : (List.range m).map (fun i : ℕ => t + i) ⊆ q.eventList.keys := by
    intro k hk
    obtain ⟨i, hi, rfl⟩ := List.mem_map.mp hk
    exact h.1 i (List.mem_range.mp hi)
  have hle := (hnodup.subperm hsub).length_le
  rwa [List.length_map, List.length_range, SortedMap.keys, List.length_map] at hle

/-- The stamps under which the events of a list are stored, one after the other. -/
def addedStamps (q : EventQueue T C w) : List (EventStruct T C) → List ℤ
  | [] => []
  | e :: es => q.addedStamp e :: (q.addEvent e).queue.addedStamps es

lemma addedStamps_cons (q : EventQueue T C w) (e : EventStruct T C) (es : List (EventStruct T C)) :
    q.addedStamps (e :: es)
      = q.addedStamp e :: (q.withEvent (q.addedStamp e) e).addedStamps es := by
  rw [addedStamps, addEvent_eq]

/-- The stamps are given by probing. -/
lemma servesAs_addedStamps (q : EventQueue T C w) (es : List (EventStruct T C)) :
    ServesAs q.eventList.keySet (es.map EventStruct.eventTimeStamp) (q.addedStamps es) := by
  induction es generalizing q with
  | nil => exact .nil _
  | cons e es ih =>
      rw [addedStamps_cons]
      refine .cons (q.isNearestFree_addedStamp e) ?_
      have := ih (q.withEvent (q.addedStamp e) e)
      rwa [withEvent, SortedMap.keySet_insert (q.addedStamp_notMem e)] at this

/-- The events lie under the stamps given to them, beside those that were pending. -/
lemma perm_addEvents (q : EventQueue T C w) (es : List (EventStruct T C)) :
    (q.addEvents es).1.eventList.entries.Perm
      (List.zipWith (fun e k => (k, e.stampedAt k)) es (q.addedStamps es)
        ++ q.eventList.entries) := by
  induction es generalizing q with
  | nil => rfl
  | cons e es ih =>
      rw [addEvents_cons, addedStamps_cons, List.zipWith_cons_cons, List.cons_append]
      refine (ih _).trans (List.Perm.trans ?_ List.perm_middle)
      exact (SortedMap.insert_perm (q.addedStamp_notMem e) _).append_left _

lemma length_addedStamps (q : EventQueue T C w) (es : List (EventStruct T C)) :
    (q.addedStamps es).length = es.length := by
  rw [← (q.servesAs_addedStamps es).schedules.notBefore.length_eq, List.length_map]

/-- An event is moved by fewer milliseconds than there are events in the end. -/
lemma late_addedStamps (q : EventQueue T C w) (es : List (EventStruct T C)) :
    ∀ p ∈ es.zip (q.addedStamps es), p.1.eventTimeStamp ≤ p.2 ∧
      p.2 < p.1.eventTimeStamp + (q.eventList.size + es.length : ℕ) := by
  induction es generalizing q with
  | nil => exact List.forall_mem_nil _
  | cons e es ih =>
      rw [addedStamps_cons, List.zip_cons_cons]
      obtain ⟨n, hn, hk⟩ := q.exists_takenInARow e
      have hle := takenInARow_le hn
      have hsize : (q.withEvent (q.addedStamp e) e).eventList.size = q.eventList.size + 1 :=
        (SortedMap.insert_perm (q.addedStamp_notMem e) _).length_eq
      refine List.forall_mem_cons.mpr ⟨?_, fun p hp => ?_⟩
      · simp only [hk, List.length_cons]
        omega
      · have hp' := ih _ p hp
        rw [hsize] at hp'
        simp only [List.length_cons]
        omega

/-- The events added to an empty queue, in the order of the stamps given to them. -/
lemma exists_sorted_addEvents {q : EventQueue T C w} (hq : q.eventList = .empty)
    (es : List (EventStruct T C)) : ∃ ps : List (EventStruct T C × ℤ),
      ps.Perm (es.zip (q.addedStamps es)) ∧ ps.Pairwise (·.2 < ·.2) ∧
      (q.addEvents es).1.eventList.entries = ps.map fun p => (p.2, p.1.stampedAt p.2) := by
  have hentries := q.perm_addEvents es
  rw [hq, SortedMap.entries_empty, List.append_nil, ← List.map_uncurry_zip_eq_zipWith] at hentries
  obtain ⟨ps, hps, hperm⟩ := List.perm_comp_forall₂ (r := fun x p => x = (p.2, p.1.stampedAt p.2))
    hentries (List.forall₂_map_left_iff.mpr (List.forall₂_same.mpr fun _ _ => rfl))
  have heq : (q.addEvents es).1.eventList.entries = ps.map fun p => (p.2, p.1.stampedAt p.2) := by
    rw [← List.forall₂_eq_eq_eq, List.forall₂_map_right_iff]
    exact hps
  have hsorted := (q.addEvents es).1.eventList.sorted
  rw [heq, List.map_map, List.pairwise_map] at hsorted
  exact ⟨ps, hperm, hsorted, heq⟩

/-- Events of different stamps that are added to an empty queue keep theirs. -/
lemma values_addEvents_of_nodup {q : EventQueue T C w} (hq : q.eventList = .empty)
    {es : List (EventStruct T C)} (hes : (es.map EventStruct.eventTimeStamp).Nodup) :
    (q.addEvents es).1.eventList.values.Perm es := by
  have hstamps : q.addedStamps es = es.map EventStruct.eventTimeStamp := by
    refine (q.servesAs_addedStamps es).eq_of_nodup hes fun t _ => ?_
    rw [hq]
    exact List.not_mem_nil
  have hentries := (q.perm_addEvents es).map Prod.snd
  rw [hq, SortedMap.entries_empty, List.append_nil, hstamps] at hentries
  have hsame : (List.zipWith (fun e k => (k, EventStruct.stampedAt e k)) es
      (es.map EventStruct.eventTimeStamp)).map Prod.snd = es := by
    rw [List.zipWith_map_right, List.zipWith_self, List.map_map]
    exact List.map_id' _
  rwa [hsame] at hentries

/-- The first event of the added ones is one that requests the earliest stamp, and it gets it. -/
lemma first_addEvents {q : EventQueue T C w} (hq : q.eventList = .empty)
    {es : List (EventStruct T C)} (hes : es ≠ []) : ∃ e ∈ es,
      (∀ e' ∈ es, e.eventTimeStamp ≤ e'.eventTimeStamp) ∧
      (q.addEvents es).1.eventList.first? = some (e.eventTimeStamp, e) := by
  obtain ⟨ps, hperm, hsorted, hentries⟩ := exists_sorted_addEvents hq es
  have hlen := q.length_addedStamps es
  have hfst : (es.zip (q.addedStamps es)).map Prod.fst = es := List.map_fst_zip hlen.ge
  have hsnd : (es.zip (q.addedStamps es)).map Prod.snd = q.addedStamps es :=
    List.map_snd_zip hlen.le
  cases ps with
  | nil =>
      rw [← hfst, List.nil_perm.mp hperm] at hes
      exact absurd rfl hes
  | cons p₀ ps =>
      have hslots : ∀ p ∈ es.zip (q.addedStamps es), p₀.2 ≤ p.2 := by
        intro p hp
        rcases List.mem_cons.mp (hperm.mem_iff.mpr hp) with rfl | hp
        · exact le_rfl
        · exact ((List.pairwise_cons.mp hsorted).1 p hp).le
      -- a stamp before the first one would be taken if an event requested it
      have hrequests : ∀ p ∈ es.zip (q.addedStamps es), p₀.2 ≤ p.1.eventTimeStamp := by
        intro p hp
        by_contra hlt
        have hzip : (p.1.eventTimeStamp, p.2) ∈
            (es.map EventStruct.eventTimeStamp).zip (q.addedStamps es) := by
          rw [List.zip_map_left]
          exact List.mem_map_of_mem hp
        rcases (q.servesAs_addedStamps es).taken hzip le_rfl
            ((not_le.mp hlt).trans_le (hslots p hp))
          with hmem | hmem
        · rw [hq] at hmem
          exact absurd hmem List.not_mem_nil
        · rw [← hsnd] at hmem
          obtain ⟨p', hp', heq⟩ := List.mem_map.mp hmem
          exact hlt (heq ▸ hslots p' hp')
      have hp₀ := hperm.mem_iff.mp List.mem_cons_self
      have hself : p₀.1.eventTimeStamp = p₀.2 :=
        le_antisymm (q.late_addedStamps es p₀ hp₀).1 (hrequests p₀ hp₀)
      refine ⟨p₀.1, hfst ▸ List.mem_map_of_mem hp₀, fun e' he' => ?_, ?_⟩
      · rw [← hfst] at he'
        obtain ⟨p', hp', rfl⟩ := List.mem_map.mp he'
        exact hself ▸ hrequests p' hp'
      · rw [SortedMap.first?, hentries, List.map_cons, List.head?_cons, ← hself,
          EventStruct.stampedAt_self]

/-- The events to come after the stamp `x` are those that were pending there and those given a stamp
beyond it. -/
lemma countAfter_addEvents (q : EventQueue T C w) (es : List (EventStruct T C)) (x : ℤ) :
    (q.addEvents es).1.eventList.countAfter x
      = (q.addedStamps es).countP (x < ·) + q.eventList.countAfter x := by
  have hkeys := (q.perm_addEvents es).map Prod.fst
  have hstamps : (List.zipWith (fun e k => (k, EventStruct.stampedAt e k)) es
      (q.addedStamps es)).map Prod.fst = q.addedStamps es := by
    rw [← List.map_uncurry_zip_eq_zipWith, List.map_map]
    exact List.map_snd_zip (q.length_addedStamps es).le
  rw [List.map_append, hstamps] at hkeys
  rw [SortedMap.countAfter, SortedMap.countAfter, ← List.countP_eq_length_filter,
    ← List.countP_eq_length_filter, SortedMap.keys, hkeys.countP_eq, List.countP_append]
  rfl

/-- The milliseconds by which the events are moved in all when they are given the stamps `ks`. -/
def totalDelay (es : List (EventStruct T C)) (ks : List ℤ) : ℤ :=
  (List.zipWith (fun e k => k - e.eventTimeStamp) es ks).sum

omit [Stdair T] in
lemma totalDelay_eq {es : List (EventStruct T C)} {ks : List ℤ} (h : es.length = ks.length) :
    totalDelay es ks = ks.sum - (es.map EventStruct.eventTimeStamp).sum := by
  induction es generalizing ks with
  | nil =>
      rw [List.length_nil, eq_comm, List.length_eq_zero_iff] at h
      rw [h]
      rfl
  | cons e es ih =>
      cases ks with
      | nil => exact absurd h (Nat.succ_ne_zero _)
      | cons k ks =>
          have hrest : totalDelay es ks = ks.sum - (es.map EventStruct.eventTimeStamp).sum :=
            ih (by simpa using h)
          rw [totalDelay] at hrest
          rw [totalDelay, List.zipWith_cons_cons, List.sum_cons, List.map_cons, List.sum_cons,
            List.sum_cons, hrest]
          omega

/-- **Events are moved as little as possible.** -/
theorem addEvents_least (q : EventQueue T C w) {es : List (EventStruct T C)} {g : List ℤ}
    (hg : Schedules q.eventList.keySet (es.map EventStruct.eventTimeStamp) g) :
    Schedules q.eventList.keySet (es.map EventStruct.eventTimeStamp) (q.addedStamps es) ∧
      (q.addEvents es).1.eventList.entries.Perm
        (List.zipWith (fun e k => (k, e.stampedAt k)) es (q.addedStamps es)
          ++ q.eventList.entries) ∧
      (∀ x, (q.addEvents es).1.eventList.countAfter x
        ≤ g.countP (x < ·) + q.eventList.countAfter x) ∧
      (∃ g', g'.Perm g ∧ List.Forall₂ (· ≤ ·) (q.addedStamps es) g') ∧
      totalDelay es (q.addedStamps es) ≤ totalDelay es g := by
  have hserves := q.servesAs_addedStamps es
  have hfinite := q.eventList.finite_keySet
  refine ⟨hserves.schedules, q.perm_addEvents es, fun x => ?_, hserves.least hfinite hg, ?_⟩
  · rw [countAfter_addEvents]
    exact Nat.add_le_add_right (hserves.countP_le hfinite hg x) _
  · have hlen : es.length = g.length := by
      rw [← hg.notBefore.length_eq, List.length_map]
    rw [totalDelay_eq (q.length_addedStamps es).symm, totalDelay_eq hlen]
    have := hserves.sum_le (f := id) monotone_id hfinite hg
    simp only [List.map_id] at this
    omega

/-- Two booking requests of the first millisecond and a break point of the second, given the
stamps 3, 0 and 1 instead. -/
theorem addEvents_least_sample :
    let q : EventQueue SampleType ℕ 32 := fresh "EQ01"
    let es := [sampleEvent .bkgReq 0 1, sampleEvent .bkgReq 0 2, sampleEvent .brkPt 1 3]
    let g : List ℤ := [3, 0, 1]
    Schedules q.eventList.keySet (es.map EventStruct.eventTimeStamp) (q.addedStamps es) ∧
      (q.addEvents es).1.eventList.entries.Perm
        (List.zipWith (fun e k => (k, e.stampedAt k)) es (q.addedStamps es)
          ++ q.eventList.entries) ∧
      (∀ x, (q.addEvents es).1.eventList.countAfter x
        ≤ g.countP (x < ·) + q.eventList.countAfter x) ∧
      (∃ g', g'.Perm g ∧ List.Forall₂ (· ≤ ·) (q.addedStamps es) g') ∧
      totalDelay es (q.addedStamps es) ≤ totalDelay es g :=
  addEvents_least _ ⟨by decide, by decide, fun _ _ => List.not_mem_nil⟩

end EventQueue

end Sevmgr
