import Sevmgr.Sessions.Selection

/-!
Running up to the next break point.

* `run_cases`: the two ways in which `run` ends on a queue whose events all have a registered type,
  on the first break point or on an empty queue.
* `run_plays_to_breakPoint`: what it has then removed and counted, and the event it leaves.
* `runs`: the calls of a client that passes the same event each time and reads from its type whether
  a break point was found. `runs_report_iff` says for how long it reads that correctly: a break
  point that comes last in the queue is reported again by every call on the exhausted queue.
-/

namespace Sevmgr

open EventQueue

variable {T C : Type} [Stdair T] {w : ℕ} {q q' : EventQueue T C w}

/-! ### The rounds of the popping loop -/

/-- The loop makes one round for each event it pops, so it comes to an end. -/
lemma makesRounds_play {β : Type} [DecidableEq β] (viewOf : EventStruct T C → β)
    (initial target : β) (q : EventQueue T C w) (io : EventStruct T C) :
    (playLoop viewOf target).MakesRounds ⟨q, io, initial, none, []⟩
      (q.play viewOf initial target io).popped.length := by
  suffices key : ∀ v : Playing T C w β, ∃ n, (playLoop viewOf target).MakesRounds v n ∧
      ((playLoop viewOf target).exec v).popped.length = v.popped.length + n by
    obtain ⟨n, hn, hlen⟩ := key ⟨q, io, initial, none, []⟩
    rw [play, hlen, List.length_nil, Nat.zero_add]
    exact hn
  refine (playLoop viewOf target).exec_induction (P := fun v v' =>
    ∃ n, (playLoop viewOf target).MakesRounds v n ∧ v'.popped.length = v.popped.length + n)
    (fun v hexit => ⟨0, (WhileLoop.makesRounds_zero _).mpr hexit, rfl⟩) (fun v v' hc => ?_)
  rintro ⟨n, hn, hlen⟩
  obtain ⟨k, e, -, -, hes⟩ := exists_round viewOf target hc
  refine ⟨n + 1, WhileLoop.makesRounds_succ _ hc hn, ?_⟩
  rw [hlen, show ((playLoop viewOf target).body v).popped = v.popped ++ [e] from hes,
    List.length_append, List.length_singleton]
  omega

/-! ### Up to the next break point -/

/-- The loop of `run`. -/
abbrev running (q : EventQueue T C w) (io : EventStruct T C) : Playing T C w T :=
  q.play EventStruct.eventType (bkgReq : T) brkPt io

/-- **The two ways in which `run` ends**: on the first break point, with the events before it and
itself removed, or on an empty queue that held none. -/
theorem run_cases (hq : PendingRegistered q) (io : EventStruct T C) :
    (q.run io).outcome = .returned () ∧ PendingRegistered (q.run io).queue ∧
      q.eventList.values = (q.run io).popped ++ (q.run io).queue.eventList.values ∧
      ((∃ es e, (q.run io).popped = es ++ [e] ∧ (q.run io).event = e ∧ e.eventType = brkPt ∧
          ∀ e' ∈ es, e'.eventType ≠ brkPt) ∨
        ((q.run io).queue.eventList = .empty ∧
          (q.run io).event = q.eventList.values.getLast?.getD io ∧
          ∀ e ∈ q.eventList.values, e.eventType ≠ brkPt)) := by
  obtain ⟨hinv, hexit⟩ := play_spec EventStruct.eventType (bkgReq : T) brkPt hq io
  refine ⟨by simp only [run, hinv.exception], hinv.registered, hinv.values, ?_⟩
  show (∃ es e, (running q io).popped = es ++ [e] ∧ (running q io).event = e ∧ _ ∧ _) ∨ _
  by_cases hview : (running q io).view = brkPt
  · rcases hinv.view with ⟨-, -, hinit⟩ | ⟨es, e, hes, he, hlast, -, hall⟩
    · exact absurd (hinit.symm.trans hview) Stdair.bkgReq_ne_brkPt
    · exact Or.inl ⟨es, e, hes, he, hlast.symm.trans hview, hall⟩
  · have hempty := hexit.resolve_right hview
    have hvalues := hinv.values
    rw [hempty, SortedMap.values_empty, List.append_nil] at hvalues
    refine Or.inr ⟨hempty, ?_, fun e he hbrk => ?_⟩
    · show (running q io).event = _
      rw [hvalues]
      rcases hinv.view with ⟨hes, he, -⟩ | ⟨es, e, hes, he, -⟩
      · rw [hes, he]
        rfl
      · rw [hes, he, List.getLast?_concat, Option.getD_some]
    · exact hview ((view_play_iff EventStruct.eventType (bkgReq : T) brkPt hq io).mpr
        (Or.inr ⟨e, he, hbrk⟩))

/-- The first element with a property cuts a list in one way only. -/
lemma first_unique {α : Type*} {P : α → Prop} {x x' : α} {l l' r r' : List α}
    (h : l ++ x :: r = l' ++ x' :: r') (hx : P x) (hx' : P x') (hl : ∀ y ∈ l, ¬ P y)
    (hl' : ∀ y ∈ l', ¬ P y) : l = l' ∧ x = x' ∧ r = r' := by
  induction l generalizing l' with
  | nil =>
      cases l' with
      | nil => simpa using h
      | cons y l' =>
          rw [List.nil_append, List.cons_append, List.cons.injEq] at h
          exact absurd (h.1 ▸ hx) (hl' y List.mem_cons_self)
  | cons y l ih =>
      cases l' with
      | nil =>
          rw [List.nil_append, List.cons_append, List.cons.injEq] at h
          exact absurd (h.1 ▸ hx') (hl y List.mem_cons_self)
      | cons y' l' =>
          rw [List.cons_append, List.cons_append, List.cons.injEq] at h
          obtain ⟨rfl, htail⟩ := h
          obtain ⟨rfl, hrest⟩ := ih htail (fun z hz => hl z (List.mem_cons_of_mem _ hz))
            fun z hz => hl' z (List.mem_cons_of_mem _ hz)
          exact ⟨rfl, hrest⟩

/-- **`run` plays exactly up to the next break point.** Its loop comes to an end and the call
returns. If a break point is pending, the events up to the first one are removed and counted and
that one is left in the event passed; if none is, all events are, and the last one is left, or the
event as it was when there is none. -/
theorem run_plays_to_breakPoint (hq : PendingRegistered q) (io : EventStruct T C) :
    (q.run io).outcome = .returned () ∧
      (∃ n, (playLoop EventStruct.eventType (brkPt : T)).MakesRounds
        ⟨q, io, (bkgReq : T), none, []⟩ n) ∧
      (∀ es e rest, q.eventList.values = es ++ e :: rest → e.eventType = brkPt →
        (∀ e' ∈ es, e'.eventType ≠ brkPt) →
        Removed q (es ++ [e]) (q.run io).queue ∧ (q.run io).event = e) ∧
      ((∀ e ∈ q.eventList.values, e.eventType ≠ brkPt) →
        Removed q q.eventList.values (q.run io).queue ∧
          (q.run io).event = q.eventList.values.getLast?.getD io) := by
  obtain ⟨hret, -, hvalues, hend⟩ := run_cases hq io
  have hremoved : Removed q (q.run io).popped (q.run io).queue :=
    removed_of_pops (run_happens_play (G := fun _ _ => True) _ _ _ q io)
  refine ⟨hret, ⟨_, makesRounds_play _ _ _ q io⟩, ?_, ?_⟩
  · intro es e rest hsplit hbrk hbefore
    rcases hend with ⟨es', e', hes, he, hbrk', hbefore'⟩ | ⟨-, -, hnone⟩
    · rw [hes, List.append_assoc, List.singleton_append] at hvalues
      obtain ⟨rfl, rfl, -⟩ := first_unique (P := fun e => e.eventType = brkPt)
        (hsplit.symm.trans hvalues) hbrk hbrk' hbefore hbefore'
      exact ⟨hes ▸ hremoved, he⟩
    · exact absurd hbrk (hnone e (by rw [hsplit]; simp))
  · intro hnone
    rcases hend with ⟨es, e, hes, -, hbrk, -⟩ | ⟨hempty, hevent, -⟩
    · exact absurd hbrk (hnone e (by rw [hvalues, hes]; simp))
    · rw [hempty, SortedMap.values_empty, List.append_nil] at hvalues
      exact ⟨hvalues ▸ hremoved, hevent⟩

/-- A booking request, a break point and a booking request after it. -/
theorem run_plays_to_breakPoint_sample :
    let q := sampleStart.after [.addEvent (sampleEvent .bkgReq 0 1),
      .addEvent (sampleEvent .brkPt 2 2), .addEvent (sampleEvent .bkgReq 4 3)]
    Removed q [sampleEvent .bkgReq 0 1, sampleEvent .brkPt 2 2]
        (q.run (sampleEvent .bkgReq 0 0)).queue ∧
      (q.run (sampleEvent .bkgReq 0 0)).event = sampleEvent .brkPt 2 2 :=
  (run_plays_to_breakPoint (Session.pendingRegistered (session_exchanges (show
    sampleStart.Admits Op.Plays [.addEvent (sampleEvent .bkgReq 0 1),
      .addEvent (sampleEvent .brkPt 2 2), .addEvent (sampleEvent .bkgReq 4 3)]
    by decide +kernel))) _).2.2.1 [sampleEvent .bkgReq 0 1] (sampleEvent .brkPt 2 2)
      [sampleEvent .bkgReq 4 3] (by decide +kernel) rfl (by decide +kernel)

/-! ### Successive runs -/

/-- Successive calls of `run`, each on the event that the one before it left. -/
def EventQueue.runs (q : EventQueue T C w) (io : EventStruct T C) : ℕ → List (Call T C w Unit)
  | 0 => []
  | n + 1 => q.run io :: (q.run io).queue.runs (q.run io).event n

/-- After the call the event is a break point exactly if the call extracted one. -/
def Call.Reports {α : Type} (c : Call T C w α) : Prop :=
  c.event.eventType = brkPt ↔ ∃ e ∈ c.popped, e.eventType = brkPt

/-- Each of `n` successive calls reports whether it extracted a break point, and so there are as
many calls after which the event is one as break points extracted. -/
structure RunsReport (q : EventQueue T C w) (io : EventStruct T C) (n : ℕ) : Prop where
  each : ∀ c ∈ q.runs io n, c.Reports
  total : nbOfType brkPt ((q.runs io n).map Call.event)
    = nbOfType brkPt ((q.runs io n).flatMap Call.popped)

/-- A call that reports rightly extracts one break point or none. -/
lemma nbOfType_popped_run (hq : PendingRegistered q) {io : EventStruct T C}
    (h : (q.run io).Reports) : nbOfType brkPt (q.run io).popped
      = if (q.run io).event.eventType = brkPt then 1 else 0 := by
  obtain ⟨-, -, hvalues, hend⟩ := run_cases hq io
  rcases hend with ⟨es, e, hes, he, hbrk, hbefore⟩ | ⟨hempty, -, hnone⟩
  · rw [he, if_pos hbrk, hes, nbOfType_append, nbOfType_eq_zero.mpr hbefore, nbOfType_cons,
      if_pos hbrk]
    rfl
  · rw [hempty, SortedMap.values_empty, List.append_nil] at hvalues
    have hzero : nbOfType brkPt (q.run io).popped = 0 :=
      nbOfType_eq_zero.mpr (hvalues ▸ hnone)
    have hnot : (q.run io).event.eventType ≠ brkPt := fun hbrk => by
      obtain ⟨e, he, hbrk'⟩ := h.mp hbrk
      exact nbOfType_eq_zero.mp hzero e he hbrk'
    rw [hzero, if_neg hnot]

/-- The totals follow from the single calls. -/
lemma runs_total (hq : PendingRegistered q) {io : EventStruct T C} {n : ℕ}
    (h : ∀ c ∈ q.runs io n, c.Reports) : nbOfType brkPt ((q.runs io n).map Call.event)
      = nbOfType brkPt ((q.runs io n).flatMap Call.popped) := by
  induction n generalizing q io with
  | zero => rfl
  | succ n ih =>
      rw [runs] at h ⊢
      have hhead := nbOfType_popped_run hq (h _ List.mem_cons_self)
      have htail := ih (run_cases hq io).2.1 fun c hc => h c (List.mem_cons_of_mem _ hc)
      rw [List.map_cons, nbOfType_cons, htail, List.flatMap_cons, nbOfType_append, hhead]
      omega

/-- The last pending event, or the event passed when none is pending. -/
def lastEvent (q : EventQueue T C w) (io : EventStruct T C) : EventStruct T C :=
  q.eventList.values.getLast?.getD io

/-- A call leaves the last event as it is. -/
lemma lastEvent_run (hq : PendingRegistered q) (io : EventStruct T C) :
    lastEvent (q.run io).queue (q.run io).event = lastEvent q io := by
  obtain ⟨-, -, hvalues, hend⟩ := run_cases hq io
  rcases hend with ⟨es, e, hes, he, -, -⟩ | ⟨hempty, hlast, -⟩
  · rw [lastEvent, lastEvent, hvalues, hes, he]
    cases (q.run io).queue.eventList.values.eq_nil_or_concat with
    | inl hnil => simp [hnil]
    | inr hconcat =>
        obtain ⟨l, x, hl⟩ := hconcat
        simp [hl, ← List.append_assoc]
  · rw [lastEvent, hempty, SortedMap.values_empty, hlast]
    rfl

/-- One call more in front of the others. -/
lemma runs_reports_iff (hq : PendingRegistered q) (io : EventStruct T C) (n : ℕ) :
    (∀ c ∈ q.runs io n, c.Reports) ↔
      ((lastEvent q io).eventType ≠ brkPt ∨ n ≤ nbOfType brkPt q.eventList.values) := by
  induction n generalizing q io with
  | zero => exact ⟨fun _ => Or.inr (Nat.zero_le _), fun _ c hc => absurd hc List.not_mem_nil⟩
  | succ n ih =>
      obtain ⟨-, hreg, hvalues, hend⟩ := run_cases hq io
      have hsame := lastEvent_run hq io
      rw [runs, List.forall_mem_cons, ih hreg, hsame]
      rcases hend with ⟨es, e, hes, he, hbrk, hbefore⟩ | ⟨hempty, hlast, hnone⟩
      · -- the call stops on a break point, and one fewer is pending
        have hreports : (q.run io).Reports :=
          ⟨fun _ => ⟨e, by rw [hes]; simp, hbrk⟩, fun _ => he ▸ hbrk⟩
        have hnb : nbOfType brkPt q.eventList.values
            = nbOfType brkPt (q.run io).queue.eventList.values + 1 := by
          rw [hvalues, nbOfType_append, nbOfType_popped_run hq hreports, he, if_pos hbrk]
          omega
        rw [hnb]
        refine ⟨fun h => h.2.imp_right Nat.succ_le_succ, fun h => ⟨hreports, ?_⟩⟩
        exact h.imp_right Nat.le_of_succ_le_succ
      · -- no break point is pending: the call leaves the last event, and so do all others
        rw [hempty, SortedMap.values_empty, List.append_nil] at hvalues
        have hlast' : (q.run io).event = lastEvent q io := hlast
        have hpopped : ¬ ∃ e ∈ (q.run io).popped, e.eventType = brkPt := by
          rintro ⟨e, he, hbrk⟩
          exact hnone e (hvalues ▸ he) hbrk
        rw [Call.Reports, hlast', iff_false_right hpopped, hempty, SortedMap.values_empty,
          nbOfType_eq_zero.mpr hnone]
        refine ⟨fun h => Or.inl h.1, fun h => ?_⟩
        have hne := h.resolve_right (by omega)
        exact ⟨hne, Or.inl hne⟩

/-- **Successive runs report rightly whether they stopped on a break point** exactly as long as the
last pending event, or the event passed if none is pending, is not a break point, or there are no
more calls than break points pending. -/
theorem runs_report_iff (hq : PendingRegistered q) (io : EventStruct T C) (n : ℕ) :
    RunsReport q io n ↔
      ((q.eventList.values.getLast?.getD io).eventType ≠ brkPt ∨
        n ≤ q.eventList.values.countP fun e => e.eventType = brkPt) := by
  refine ⟨fun h => (runs_reports_iff hq io n).mp h.each, fun h => ?_⟩
  have heach := (runs_reports_iff hq io n).mpr h
  exact ⟨heach, runs_total hq heach⟩

/-- Two runs on a queue that ends with its two break points. -/
theorem runs_report_iff_sample :
    RunsReport (sampleStart.after [.addEvent (sampleEvent .brkPt 1 1),
      .addEvent (sampleEvent .brkPt 2 2)]) (sampleEvent .bkgReq 0 0) 2 :=
  (runs_report_iff (Session.pendingRegistered (session_exchanges (show
    sampleStart.Admits Op.Plays [.addEvent (sampleEvent .brkPt 1 1),
      .addEvent (sampleEvent .brkPt 2 2)] by decide +kernel))) _ _).mpr (by decide +kernel)

/-- Two runs on a queue with one break point: the second one extracts nothing, and the break point
of the first is still there to be read. -/
theorem runs_report_stale : ∃ ls q, Session Op.Plays sampleStart ls q ∧
    (∀ e ∈ added (history ls), OnTime e) ∧ ¬ RunsReport q (sampleEvent .bkgReq 0 0) 2 := by
  have hops : sampleStart.Admits Op.Plays [.addEvent (sampleEvent .brkPt 1 1)] := by
    decide +kernel
  refine ⟨_, _, session_exchanges hops, by decide +kernel, fun h => ?_⟩
  exact absurd h.total (by decide +kernel)

end Sevmgr
