import Sevmgr.Model.Sample
import Sevmgr.Model.Simulation
import Sevmgr.Sessions.ManagerPop
import Sevmgr.Sessions.Pops

/-!
What the main loop of the batch and of the test makes of any queue.

The loop asks `EventQueueManager::popEvent` for the next event, which hides from it the exceptions
of the queue.

* `reportOf`: what the call returns for an event, after those popped before it.
* `managerPopEvent_of_first`: a round of the loop, whether or not the type of the event has a
  status.
* `Drains`: the events of the queue are popped in their order and each is reported.
* `simulate_drains`: the loop does so on every queue, in as many rounds as there are events, and
  complains of an empty queue once for each event whose type has no status.
* `Session.plays_agree`: every other way of playing the queue leaves the same.
-/

namespace Sevmgr

open EventQueue Terminal

variable {T C : Type} [Stdair T] {w : ℕ} {q : EventQueue T C w} {k : ℤ} {e : EventStruct T C}

/-! ### One round -/

/-- What is returned for the event `e` of `q` when the events `es` have been popped before it. -/
def reportOf (q : EventQueue T C w) (es : List (EventStruct T C)) (e : EventStruct T C) :
    Outcome T (ProgressStatusSet T w) :=
  match q.progressStatusMap.find? e.eventType with
  | none => .returned (.ofType bkgReq)
  | some s => .returned ⟨e.eventType,
      some { s with currentNb := s.currentNb + nbOfType e.eventType (es ++ [e]) },
      some { q.progressStatus with currentNb := q.progressStatus.currentNb + (es ++ [e]).length }⟩

/-- The message of the handler. -/
def complaint : Output := .err "The event queue is empty: no event can be popped out.\n"

/-- The call pops the first event and reports it; it complains if the type has no status. -/
lemma managerPopEvent_of_first (hfirst : q.eventList.first? = some (k, e))
    (io : EventStruct T C) :
    q.managerPopEvent io = ⟨reportOf q [] e, q.played k e, e, [e]⟩ ∧
      caughtOutputs q io = if q.hasProgressStatus e.eventType then [] else [complaint] := by
  rw [hasProgressStatus, reportOf]
  cases hs : q.progressStatusMap.find? e.eventType with
  | none =>
      have hnot := SortedMap.find?_eq_none.mp hs
      rw [managerPopEvent, caughtOutputs, popEvent_of_unregistered hfirst hnot]
      exact ⟨rfl, rfl⟩
  | some s =>
      rw [managerPopEvent_of_registered hfirst hs, caughtOutputs, popEvent_of_registered hfirst hs]
      simp [nbOfType, ProgressStatus.increment, played]

/-- The reports of the later events do not depend on whether the first one is still there. -/
lemma reportOf_played (q : EventQueue T C w) (k : ℤ) (e : EventStruct T C)
    (es : List (EventStruct T C)) (e' : EventStruct T C) :
    reportOf (q.played k e) es e' = reportOf q (e :: es) e' := by
  rw [reportOf, reportOf, played, SortedMap.find?_modify]
  by_cases ht : e'.eventType = e.eventType
  · rw [if_pos ht, ← ht]
    cases q.progressStatusMap.find? e'.eventType with
    | none => rfl
    | some s =>
        simp only [Option.map_some, List.cons_append, nbOfType_cons, ht, if_true, List.length_cons,
          ProgressStatus.increment, Nat.add_assoc, Nat.add_comm 1]
  · rw [if_neg ht]
    cases q.progressStatusMap.find? e'.eventType with
    | none => rfl
    | some s =>
        simp only [List.cons_append, nbOfType_cons, Ne.symm ht, if_false, List.length_cons,
          ProgressStatus.increment, Nat.add_assoc, Nat.add_comm 1, Nat.add_zero]

lemma hasProgressStatus_played (q : EventQueue T C w) (k : ℤ) (e : EventStruct T C) (t : T) :
    (q.played k e).hasProgressStatus t = q.hasProgressStatus t := by
  rw [hasProgressStatus, hasProgressStatus, played, SortedMap.find?_modify]
  split_ifs with ht
  · rw [Option.isSome_map, ht]
  · rfl

/-! ### The loop -/

/-- The rounds in which the events of `q` are popped, numbered from `idx`. -/
def roundsOf (q : EventQueue T C w) (idx : Count w) : List (Round T C w) :=
  q.eventList.values.mapIdx fun i e =>
    ⟨idx + BitVec.ofNat w i, e, reportOf q (q.eventList.values.take i) e⟩

lemma roundsOf_of_first (hfirst : q.eventList.first? = some (k, e)) (idx : Count w) :
    roundsOf q idx = ⟨idx, e, reportOf q [] e⟩ :: roundsOf (q.played k e) (idx + 1) := by
  rw [roundsOf, SortedMap.values_eq_cons_of_first? hfirst, List.mapIdx_cons, List.cons.injEq]
  refine ⟨by simp, ?_⟩
  rw [roundsOf, played]
  refine List.mapIdx_eq_mapIdx_iff.mpr fun i hi => ?_
  rw [← played, List.take_succ_cons, reportOf_played, Nat.add_comm, BitVec.ofNat_add, ← add_assoc]
  rfl

/-- The loop pops the events of its queue in their order, and numbers and reports each. It complains
about those whose type has no status. -/
structure Drains (v v' : Simulation T C w) : Prop where
  done : v'.queue.eventList = .empty
  pops : Pops v.queue v.queue.eventList.values v'.queue
  removed : Removed v.queue v.queue.eventList.values v'.queue
  idx : v'.idx = v.idx + BitVec.ofNat w v.queue.eventList.size
  rounds : v'.rounds = v.rounds ++ roundsOf v.queue v.idx
  outputs : v'.outputs = v.outputs ++ List.replicate
    (v.queue.eventList.values.countP fun e => !v.queue.hasProgressStatus e.eventType) complaint

/-- A loop that is left at once. -/
lemma Drains.refl {v : Simulation T C w} (h : v.queue.eventList = .empty) : Drains v v where
  done := h
  pops := by rw [h]; exact .nil _
  removed := by rw [h]; exact .refl _
  idx := by simp [h]
  rounds := by simp [roundsOf, h]
  outputs := by simp [h]

/-- One round more, in front of the others. -/
lemma Drains.round {v v' : Simulation T C w} (hfirst : v.queue.eventList.first? = some (k, e))
    {io : EventStruct T C} (h : Drains (v.round io) v') : Drains v v' := by
  obtain ⟨hcall, hcaught⟩ := managerPopEvent_of_first hfirst io
  have hround : v.round io = ⟨v.queue.played k e, v.idx + 1,
      v.rounds ++ [⟨v.idx, e, reportOf v.queue [] e⟩],
      v.outputs ++ if v.queue.hasProgressStatus e.eventType then [] else [complaint]⟩ := by
    rw [Simulation.round, hcall, hcaught]
  rw [hround] at h
  have hvalues := SortedMap.values_eq_cons_of_first? hfirst
  have hsize := SortedMap.size_erase_first hfirst
  refine ⟨h.done, ?_, ?_, ?_, ?_, ?_⟩
  · rw [hvalues]
    exact .cons (.popped hfirst) h.pops
  · rw [hvalues]
    exact .cons hfirst h.removed
  · rw [h.idx, ← hsize, Nat.add_comm, BitVec.ofNat_add, ← add_assoc]
    rfl
  · rw [h.rounds, roundsOf_of_first hfirst, List.append_assoc, List.singleton_append]
  · rw [h.outputs, hvalues, List.countP_cons]
    simp only [hasProgressStatus_played]
    cases v.queue.hasProgressStatus e.eventType with
    | false => simp [List.replicate_succ, played]
    | true => simp [played]

/-- A round of the loop pops the first event. -/
lemma queue_round (hfirst : q.eventList.first? = some (k, e)) (io : EventStruct T C)
    (idx : Count w) (rounds : List (Round T C w)) (outputs : List Output) :
    (Simulation.round io ⟨q, idx, rounds, outputs⟩).queue = q.played k e := by
  rw [Simulation.round, (managerPopEvent_of_first hfirst io).1]

lemma simulationLoop_cond {io : EventStruct T C} {v : Simulation T C w} :
    (simulationLoop io).cond v = true ↔ v.queue.eventList ≠ .empty := by
  simp [simulationLoop, isQueueDone]

/-- The loop makes one round for each event. -/
lemma makesRounds_simulationLoop (io : EventStruct T C) (v : Simulation T C w) :
    (simulationLoop io).MakesRounds v v.queue.eventList.size := by
  refine (simulationLoop io).exec_induction
    (P := fun v _ => (simulationLoop io).MakesRounds v v.queue.eventList.size)
    (fun v hexit => ?_) (fun v _ hc ih => ?_) v
  · have hempty : v.queue.eventList = .empty := by
      by_contra hne
      rw [simulationLoop_cond.mpr hne] at hexit
      exact absurd hexit (by decide)
    rw [hempty, SortedMap.size_empty]
    exact (WhileLoop.makesRounds_zero _).mpr hexit
  · obtain ⟨k, e, hfirst⟩ := SortedMap.exists_first? (simulationLoop_cond.mp hc)
    have hsize : (v.round io).queue.eventList.size + 1 = v.queue.eventList.size := by
      rw [queue_round hfirst]
      exact SortedMap.size_erase_first hfirst
    rw [← hsize]
    exact WhileLoop.makesRounds_succ _ hc ih

lemma drains_simulate (q : EventQueue T C w) (io : EventStruct T C) :
    Drains ⟨q, 1, [], []⟩ (q.simulate io) := by
  refine (simulationLoop io).exec_induction (P := Drains) (fun v hexit => .refl ?_)
    (fun v v' hc ih => ?_) _
  · by_contra hne
    rw [simulationLoop_cond.mpr hne] at hexit
    exact absurd hexit (by decide)
  · obtain ⟨k, e, hfirst⟩ := SortedMap.exists_first? (simulationLoop_cond.mp hc)
    exact ih.round hfirst

/-- **The loop drains every queue** and makes one round for each of its events, whatever their types
and whatever the event structure that a round starts with. -/
theorem simulate_drains (q : EventQueue T C w) (io : EventStruct T C) :
    (simulationLoop io).MakesRounds ⟨q, 1, [], []⟩ q.eventList.size ∧
      Drains ⟨q, 1, [], []⟩ (q.simulate io) :=
  ⟨makesRounds_simulationLoop io _, drains_simulate q io⟩

/-- **However a queue is played, it is the same play.** Of two sessions of pops, runs and selections
from one queue, in any order and whether or not they raise, the one that leaves fewer events has
popped all that the other has and goes on from the queue of the other. If they leave equally many
they leave the same queue, and if none are left it is the queue that the main loop leaves. -/
theorem Session.plays_agree {ls₁ ls₂ : List (Exchange T C w)} {q₁ q₂ : EventQueue T C w}
    (h₁ : Session Op.Takes q ls₁ q₁) (h₂ : Session Op.Takes q ls₂ q₂)
    (hle : q₂.eventList.size ≤ q₁.eventList.size) :
    (∃ es, popped (history ls₂) = popped (history ls₁) ++ es ∧ Pops q₁ es q₂) ∧
      (q₂.eventList.size = q₁.eventList.size → q₂ = q₁) ∧
      (q₂.eventList = .empty → ∀ io, q₂ = (q.simulate io).queue) := by
  have hlen₁ := h₁.pops.length_add_size
  have hlen₂ := h₂.pops.length_add_size
  obtain ⟨es, hes, hpops⟩ := h₁.pops.exists_extension h₂.pops (by omega)
  refine ⟨⟨es, hes, hpops⟩, fun hsize => ?_, fun hempty io => ?_⟩
  · obtain rfl : es = [] := by
      have hlength := congrArg List.length hes
      rw [List.length_append] at hlength
      exact List.length_eq_zero_iff.mp (by omega)
    cases hpops
    rfl
  · have hall := h₂.pops.values
    rw [hempty, SortedMap.values_empty, List.append_nil] at hall
    refine h₂.pops.unique ?_
    rw [← hall]
    exact (drains_simulate q io).pops

/-- Of the sample queue, a run up to the first break point, and a selection of the second one that a
single pop follows. -/
theorem Session.plays_agree_sample :
    let q := sampleQueue sampleStart
    let ops₁ : List (Op SampleType ℕ) := [.run (sampleEvent .bkgReq 0 0)]
    let ops₂ : List (Op SampleType ℕ) := [.select (sampleEvent .bkgReq 0 0) (1000 * (498 * day)),
      .popEvent (sampleEvent .bkgReq 0 0)]
    ∃ es, popped (history (q.exchanges ops₂)) = popped (history (q.exchanges ops₁)) ++ es ∧
      Pops (q.after ops₁) es (q.after ops₂) := by
  intro q ops₁ ops₂
  have h₁ : q.Admits Op.Takes ops₁ := by decide +kernel
  have h₂ : q.Admits Op.Takes ops₂ := by decide +kernel
  have hle : (q.after ops₂).eventList.size ≤ (q.after ops₁).eventList.size := by decide +kernel
  exact (Session.plays_agree (session_exchanges h₁) (session_exchanges h₂) hle).1

end Sevmgr
