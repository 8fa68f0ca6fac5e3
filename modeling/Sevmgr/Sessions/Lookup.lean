import Sevmgr.Sessions.Running

/-!
Selecting an event by the date-time it has.

`select` looks for the stamp of the date-time and then pops until the date-time shows, which it
takes the oldest one to do before any pop.

* `select_of_missing`, `select_oldest`, `select_of_pending`: the call when the stamp is free, when
  the date-time is the oldest one, and when some pending event has it.
* `SelectsOwn`, `selectsOwn_iff`: when a pending event can be selected by its own date-time.
* `Unshifted`: a queue in which every event lies under the millisecond of its date-time.
* `SelectExtracts`, `selectExtracts_iff`: on such a queue `select` extracts exactly the event of the
  date-time asked for, unless that is the oldest one.
-/

namespace Sevmgr

open EventQueue

variable {T C : Type} [Stdair T] {w : ℕ} {q q' : EventQueue T C w} {io : EventStruct T C}
  {d : DateTime}

/-! ### The cases of the call -/

lemma hasEventDateTime_iff :
    q.hasEventDateTime d = true ↔ dateTimeStamp T d ∈ q.eventList.keys := by
  rw [hasEventDateTime, SortedMap.find?_isSome]

/-- A date-time whose stamp is free is not found, and nothing happens. -/
lemma select_of_missing (h : dateTimeStamp T d ∉ q.eventList.keys) (io : EventStruct T C) :
    q.select io d = ⟨.returned false, q, io, []⟩ := by
  have hfind : q.hasEventDateTime d = false := by
    rw [← Bool.not_eq_true, hasEventDateTime_iff]
    exact h
  rw [select, if_pos hfind]

/-- The loop is not entered for the oldest date-time. -/
lemma select_oldest (h : dateTimeStamp T (defaultEventOldestDateTime T) ∈ q.eventList.keys)
    (io : EventStruct T C) :
    q.select io (defaultEventOldestDateTime T) = ⟨.returned true, q, io, []⟩ := by
  have hfind := hasEventDateTime_iff.mpr h
  have hskip : q.play EventStruct.eventTime (defaultEventOldestDateTime T)
      (defaultEventOldestDateTime T) io = ⟨q, io, defaultEventOldestDateTime T, none, []⟩ :=
    WhileLoop.exec_of_not_cond _ (by simp [playLoop])
  rw [select, if_neg (by simp [hfind]), hskip]
  simp only [if_true]

/-- Any other date-time that is found and that some pending event has is played for, up to the first
event that has it. -/
lemma select_of_pending (hq : PendingRegistered q) (hstamp : dateTimeStamp T d ∈ q.eventList.keys)
    (hne : d ≠ defaultEventOldestDateTime T) (hpending : ∃ e ∈ q.eventList.values, e.eventTime = d)
    (io : EventStruct T C) :
    ∃ es e, (q.select io d).outcome = .returned true ∧ (q.select io d).event = e ∧
      Removed q (es ++ [e]) (q.select io d).queue ∧ e.eventTime = d ∧
      (∀ e' ∈ es, e'.eventTime ≠ d) ∧
      q.eventList.values = es ++ e :: (q.select io d).queue.eventList.values := by
  have hinv := (play_spec EventStruct.eventTime (defaultEventOldestDateTime T) d hq io).1
  have hview := (view_play_iff EventStruct.eventTime (defaultEventOldestDateTime T) d hq io).mpr
    (Or.inr hpending)
  have hremoved : Removed q (selection q io d).popped (selection q io d).queue :=
    removed_of_pops (run_happens_play (G := fun _ _ => True) _ _ _ q io)
  rw [select_of_found hq (hasEventDateTime_iff.mpr hstamp) io, if_pos hview]
  rcases hinv.view with ⟨-, -, hinit⟩ | ⟨es, e, hes, he, hlast, -, hbefore⟩
  · exact absurd (hview.symm.trans hinit) hne
  · refine ⟨es, e, rfl, he, hes ▸ hremoved, hlast.symm.trans hview, hbefore, ?_⟩
    rw [hinv.values, hes, List.append_assoc, List.singleton_append]

/-- Removing an event makes another queue. -/
lemma Removed.ne {es : List (EventStruct T C)} (h : Removed q es q') (hne : es ≠ []) : q' ≠ q := by
  rintro rfl
  obtain ⟨ps, hps, hes⟩ := h.events
  rw [List.self_eq_append_left] at hps
  rw [hps] at hes
  exact hne hes.symm

/-! ### Its own date-time -/

/-- Selecting the event by its date-time returns `true` and does something to the queue. -/
def SelectsOwn (q : EventQueue T C w) (io e : EventStruct T C) : Prop :=
  (q.select io e.eventTime).outcome = .returned true ∧ (q.select io e.eventTime).queue ≠ q

/-- **A pending event can be selected by its own date-time** exactly when some event lies under the
stamp of that date-time and it is not the oldest one. -/
theorem selectsOwn_iff {key : String} {regs : List (T × ℚ)} {ls : List (Exchange T C w)}
    (hs : Session Op.Plays (.prepared key regs) ls q) (io : EventStruct T C) {e : EventStruct T C}
    (he : e ∈ q.eventList.values) :
    SelectsOwn q io e ↔ (dateTimeStamp T e.eventTime ∈ q.eventList.keys ∧
      e.eventTime ≠ defaultEventOldestDateTime T) := by
  refine ⟨?_, ?_⟩
  · rintro ⟨hret, hchanged⟩
    have hstamp : dateTimeStamp T e.eventTime ∈ q.eventList.keys := by
      by_contra hmissing
      rw [select_of_missing hmissing] at hret
      exact absurd hret (by simp)
    refine ⟨hstamp, fun hold => hchanged ?_⟩
    rw [hold, select_oldest (hold ▸ hstamp)]
  · rintro ⟨hstamp, hne⟩
    obtain ⟨es, e', hret, -, hremoved, -⟩ :=
      select_of_pending hs.pendingRegistered hstamp hne ⟨e, he, rfl⟩ io
    exact ⟨hret, hremoved.ne (by simp)⟩

/-- A booking request moved by one millisecond, while the one it gave way to is pending. -/
theorem selectsOwn_iff_sample :
    SelectsOwn (sampleStart.after [.addEvent (sampleEvent .bkgReq 5 1),
      .addEvent (sampleEvent .bkgReq 5 2)]) (sampleEvent .bkgReq 0 0)
      ((sampleEvent .bkgReq 5 2).stampedAt 6) :=
  (selectsOwn_iff (session_exchanges (show sampleStart.Admits Op.Plays
    [.addEvent (sampleEvent .bkgReq 5 1), .addEvent (sampleEvent .bkgReq 5 2)]
    by decide +kernel)) _ (by decide +kernel)).mpr (by decide +kernel)

/-- Once that one has been popped, the moved booking request is no longer found. -/
theorem not_selectsOwn_moved : ∃ ls q, Session Op.Plays sampleStart ls q ∧
    (∀ e ∈ added (history ls), OnTime e) ∧ ∃ e ∈ q.eventList.values,
      ¬ SelectsOwn q (sampleEvent .bkgReq 0 0) e := by
  have hops : sampleStart.Admits Op.Plays [.addEvent (sampleEvent .bkgReq 5 1),
      .addEvent (sampleEvent .bkgReq 5 2), .popEvent (sampleEvent .bkgReq 0 0)] := by
    decide +kernel
  refine ⟨_, _, session_exchanges hops, by decide +kernel,
    (sampleEvent .bkgReq 5 2).stampedAt 6, by decide +kernel, fun h => ?_⟩
  exact absurd h.1 (by decide +kernel)

/-! ### Queues without shifted stamps -/

/-- Every pending event has a registered type, and lies under its own stamp, which counts the
milliseconds up to its date-time. -/
structure Unshifted (q : EventQueue T C w) : Prop where
  registered : PendingRegistered q
  stamps : StampsAgree q
  onTime : ∀ e ∈ q.eventList.values, OnTime e

/-- The date-time of a whole number of milliseconds has that number for its stamp. -/
lemma dateTimeStamp_ms (m : ℤ) :
    dateTimeStamp T (defaultEventOldestDateTime T + 1000 * m) = m := by
  rw [dateTimeStamp, totalMilliseconds, add_sub_cancel_left]
  exact Int.mul_tdiv_cancel_left m (by decide)

/-- On such a queue a date-time is found exactly when some pending event has it. -/
lemma Unshifted.mem_keys_iff (hq : Unshifted q) (m : ℤ) :
    dateTimeStamp T (defaultEventOldestDateTime T + 1000 * m) ∈ q.eventList.keys ↔
      ∃ e ∈ q.eventList.values, e.eventTime = defaultEventOldestDateTime T + 1000 * m := by
  rw [dateTimeStamp_ms]
  refine ⟨fun h => ?_, ?_⟩
  · obtain ⟨e, he⟩ := SortedMap.mem_keys.mp h
    have hvalue : e ∈ q.eventList.values := List.mem_map_of_mem he
    exact ⟨e, hvalue, by rw [hq.onTime e hvalue, hq.stamps _ he]⟩
  · rintro ⟨e, he, htime⟩
    have hstamp : e.eventTimeStamp = m := by
      have := (hq.onTime e he).symm.trans htime
      linarith
    exact hstamp ▸ SortedMap.mem_keys_of_mem (hq.stamps.mem_entries he)

/-- On such a queue the events before another one have other date-times. -/
lemma Unshifted.ne_of_before (hq : Unshifted q) {es rest : List (EventStruct T C)}
    {e : EventStruct T C} (hsplit : q.eventList.values = es ++ e :: rest) :
    ∀ e' ∈ es, e'.eventTime ≠ e.eventTime := by
  intro e' he' htime
  have hsorted : q.eventList.keys.Pairwise (· < ·) := q.eventList.sorted
  rw [← hq.stamps.stamps_values, hsplit, List.map_append, List.pairwise_append] at hsorted
  have hlt := hsorted.2.2 _ (List.mem_map_of_mem he') e.eventTimeStamp (by simp)
  have h := hq.onTime e (by rw [hsplit]; simp)
  have h' := hq.onTime e' (by rw [hsplit]; simp [he'])
  rw [h, h'] at htime
  linarith

/-- `select` returns whether some pending event has the date-time. If one has, it and the events
before it are removed and counted, and it is left in the event passed; otherwise nothing changes. -/
structure SelectExtracts (q : EventQueue T C w) (io : EventStruct T C) (d : DateTime) : Prop where
  returns : ∃ b, (q.select io d).outcome = .returned b ∧
    (b = true ↔ ∃ e ∈ q.eventList.values, e.eventTime = d)
  found : ∀ es e rest, q.eventList.values = es ++ e :: rest → e.eventTime = d →
    Removed q (es ++ [e]) (q.select io d).queue ∧ (q.select io d).event = e
  absent : (∀ e ∈ q.eventList.values, e.eventTime ≠ d) →
    (q.select io d).queue = q ∧ (q.select io d).event = io

/-- **`select` extracts the event of a date-time** on a queue without shifted stamps exactly when
the date-time is not the oldest one or no pending event has it. -/
theorem selectExtracts_iff (hq : Unshifted q) (io : EventStruct T C) (m : ℤ) :
    SelectExtracts q io (defaultEventOldestDateTime T + 1000 * m) ↔
      (defaultEventOldestDateTime T + 1000 * m ≠ defaultEventOldestDateTime T ∨
        ∀ e ∈ q.eventList.values, e.eventTime ≠ defaultEventOldestDateTime T + 1000 * m) := by
  have hkeys := hq.mem_keys_iff m
  set d := defaultEventOldestDateTime T + 1000 * m with hd
  refine ⟨fun h => ?_, fun h => ?_⟩
  · by_contra hnot
    push Not at hnot
    obtain ⟨hold, e, he, htime⟩ := hnot
    obtain ⟨es, rest, hsplit⟩ := List.append_of_mem he
    obtain ⟨hremoved, -⟩ := h.found es e rest hsplit htime
    have hstamp := hkeys.mpr ⟨e, he, htime⟩
    rw [hold] at hstamp hremoved
    rw [select_oldest hstamp] at hremoved
    exact hremoved.ne (by simp) rfl
  · by_cases hpending : ∃ e ∈ q.eventList.values, e.eventTime = d
    · have hne : d ≠ defaultEventOldestDateTime T := by
        obtain ⟨e, he, htime⟩ := hpending
        exact h.resolve_right fun hall => hall e he htime
      obtain ⟨es, e, hret, hevent, hremoved, htime, hbefore, hvalues⟩ :=
        select_of_pending hq.registered (hkeys.mpr hpending) hne hpending io
      refine ⟨⟨true, hret, by simp [hpending]⟩, fun es' e' rest hsplit htime' => ?_, fun hall => ?_⟩
      · have hbefore' := hq.ne_of_before hsplit
        rw [htime'] at hbefore'
        obtain ⟨rfl, rfl, -⟩ := first_unique (P := fun e => e.eventTime = d)
          (hvalues.symm.trans hsplit) htime htime' hbefore hbefore'
        exact ⟨hremoved, hevent⟩
      · obtain ⟨e, he, htime⟩ := hpending
        exact absurd htime (hall e he)
    · rw [← hkeys] at hpending
      have hselect := select_of_missing hpending io
      rw [hkeys] at hpending
      refine ⟨⟨false, by rw [hselect], by simp [hpending]⟩, fun es e rest hsplit htime => ?_,
        fun _ => by rw [hselect]; exact ⟨rfl, rfl⟩⟩
      exact absurd ⟨e, by rw [hsplit]; simp, htime⟩ hpending

/-- Booking requests of three milliseconds, the first one at the oldest date-time. -/
def unshiftedOps : List (Op SampleType ℕ) :=
  [.addEvent (sampleEvent .bkgReq 0 1), .addEvent (sampleEvent .bkgReq 5 2),
    .addEvent (sampleEvent .bkgReq 7 3)]

lemma unshifted_sample : Unshifted (sampleStart.after unshiftedOps) := by
  have hs : Session Op.Plays sampleStart (sampleStart.exchanges unshiftedOps)
      (sampleStart.after unshiftedOps) := session_exchanges (by decide +kernel)
  exact ⟨hs.pendingRegistered, hs.stampsAgree, by decide +kernel⟩

/-- The second one is selected. -/
theorem selectExtracts_iff_sample : SelectExtracts (sampleStart.after unshiftedOps)
    (sampleEvent .bkgReq 0 0) (defaultEventOldestDateTime SampleType + 1000 * 5) :=
  (selectExtracts_iff unshifted_sample _ 5).mpr (Or.inl (by decide +kernel))

/-- The first one is found but not extracted. -/
theorem not_selectExtracts_oldest : ∃ q : EventQueue SampleType ℕ 32, Unshifted q ∧
    ¬ SelectExtracts q (sampleEvent .bkgReq 0 0)
      (defaultEventOldestDateTime SampleType + 1000 * 0) := by
  refine ⟨_, unshifted_sample, fun h => ?_⟩
  have hremoved := (h.found [] (sampleEvent .bkgReq 0 1)
    [sampleEvent .bkgReq 5 2, sampleEvent .bkgReq 7 3] (by decide +kernel) rfl).1
  exact absurd hremoved.overall (by decide +kernel)

end Sevmgr
