import Sevmgr.Sessions.Pending
import Sevmgr.Sessions.Totals

/-!
What `reset` leaves behind: a queue that answers as a new one does.

After a reset the current and actual numbers are zero and no event is left, but the expected numbers
are those of before. A queue on which a zero status has been added for each type differs from it in
nothing else.

* `ProgressStatus.Shifted`, `EventQueue.Shifted`, `Effect.Shifted`: equal but for the expected
  numbers, which differ by those that the reset kept, overall and type by type. The exceptions quote
  the overall one.
* `Shifted.addStatus`, `Shifted.popEvent`, `Shifted.play` and the others: every method keeps two
  queues in step.
* `reset_replayable`: so the same calls have the same effects on the two queues, one after the
  other.
-/

namespace Sevmgr

open EventQueue

variable {T C : Type} {w : ℕ}

/-! ### Equal but for the expected numbers -/

/-- Related options are both empty or hold related values. -/
lemma rel_cases {α β : Type} {R : α → β → Prop} {o : Option α} {o' : Option β}
    (h : Option.Rel R o o') :
    (o = none ∧ o' = none) ∨ ∃ a b, o = some a ∧ o' = some b ∧ R a b := by
  cases h with
  | none => exact Or.inl ⟨rfl, rfl⟩
  | some hab => exact Or.inr ⟨_, _, rfl, rfl, hab⟩

/-- The status `a` is the status `b` with `d` more events expected. -/
structure ProgressStatus.Shifted (d : ℕ) (a b : ProgressStatus w) : Prop where
  currentNb : a.currentNb = b.currentNb
  actualNb : a.actualNb = b.actualNb
  expectedNb : a.expectedNb.toNat = b.expectedNb.toNat + d

/-- The numbers printed for the first queue are those of the second with `d` more events expected.
-/
structure QueueDisplay.Shifted (d : ℕ) (a b : QueueDisplay) : Prop where
  size : a.size = b.size
  currentNb : a.currentNb = b.currentNb
  expectedNb : a.expectedNb = b.expectedNb + d
  actualNb : a.actualNb = b.actualNb

/-- The same exception, which may quote the numbers of a queue. -/
inductive EventQueueException.Shifted (d : ℕ) :
    EventQueueException T → EventQueueException T → Prop where
  | queueEmpty (key : String) : Shifted d (.queueEmpty key) (.queueEmpty key)
  | noProgressStatus {a b : QueueDisplay} (t : T) (h : a.Shifted d b) :
      Shifted d (.noProgressStatus a t) (.noProgressStatus b t)

/-- Both calls return values related by `R`, raise the same exception or fail an assertion. -/
inductive Outcome.Shifted (d : ℕ) {α : Type} (R : α → α → Prop) :
    Outcome T α → Outcome T α → Prop where
  | returned {a b : α} (h : R a b) : Shifted d R (.returned a) (.returned b)
  | raised {x y : EventQueueException T} (h : x.Shifted d y) : Shifted d R (.raised x) (.raised y)
  | aborted : Shifted d R .aborted .aborted

lemma Outcome.Shifted.aborted_iff {d : ℕ} {α : Type} {R : α → α → Prop} {o o' : Outcome T α}
    (h : o.Shifted d R o') : o = .aborted ↔ o' = .aborted := by
  cases h <;> simp

variable [Stdair T]

/-- The number of events of the type `t` that the queue expects, zero for a type without status. -/
def EventQueue.expectedShare (s : EventQueue T C w) (t : T) : ℕ :=
  s.share (fun p => p.expectedNb.toNat) t

/-- The queue `q` is the queue `q'` with the events more expected that `s` expects. -/
structure EventQueue.Shifted (s q q' : EventQueue T C w) : Prop where
  key : q.key = q'.key
  eventList : q.eventList = q'.eventList
  overall : ProgressStatus.Shifted s.progressStatus.expectedNb.toNat
    q.progressStatus q'.progressStatus
  perType : ∀ t, Option.Rel (ProgressStatus.Shifted (s.expectedShare t))
    (q.progressStatusMap.find? t) (q'.progressStatusMap.find? t)
  registered : ∀ t ∈ s.progressStatusMap.keys, t ∈ q.progressStatusMap.keys

/-- The same statuses, but for the events more expected that `s` expects. -/
structure ProgressStatusSet.Shifted (s : EventQueue T C w) (a b : ProgressStatusSet T w) :
    Prop where
  eventType : a.eventType = b.eventType
  typeSpecificStatus : Option.Rel (ProgressStatus.Shifted (s.expectedShare a.eventType))
    a.typeSpecificStatus b.typeSpecificStatus
  overallStatus : Option.Rel (ProgressStatus.Shifted s.progressStatus.expectedNb.toNat)
    a.overallStatus b.overallStatus

/-- The same value, but for the events more expected that `s` expects. -/
inductive Value.Shifted (s : EventQueue T C w) : Value T w → Value T w → Prop where
  | nothing : Shifted s .nothing .nothing
  | flag (b : Bool) : Shifted s (.flag b) (.flag b)
  | statuses {a b : ProgressStatusSet T w} (h : a.Shifted s b) :
      Shifted s (.statuses a) (.statuses b)

/-- Two calls with the same outcome, leaving the same event and popping the same events. -/
structure Call.Shifted {α : Type} (s : EventQueue T C w) (R : α → α → Prop) (c c' : Call T C w α) :
    Prop where
  outcome : c.outcome.Shifted s.progressStatus.expectedNb.toNat R c'.outcome
  queue : s.Shifted c.queue c'.queue
  event : c.event = c'.event
  popped : c.popped = c'.popped

/-- Two effects with the same outcome, the same event left and the same events popped. -/
structure Effect.Shifted (s : EventQueue T C w) (c c' : Effect T C w) : Prop where
  outcome : c.outcome.Shifted s.progressStatus.expectedNb.toNat (Value.Shifted s) c'.outcome
  queue : s.Shifted c.queue c'.queue
  event : c.event = c'.event
  popped : c.popped = c'.popped

/-- The same call with the same effect. -/
def Exchange.Shifted (s : EventQueue T C w) (l l' : Exchange T C w) : Prop :=
  l.1 = l'.1 ∧ l.2.Shifted s l'.2

lemma Call.Shifted.effect {α : Type} {s : EventQueue T C w} {R : α → α → Prop}
    {c c' : Call T C w α} (h : c.Shifted s R c') {f : α → Value T w}
    (hf : ∀ a b, R a b → (f a).Shifted s (f b)) : (c.effect f).Shifted s (c'.effect f) := by
  obtain ⟨o, q, e, es⟩ := c
  obtain ⟨o', q', e', es'⟩ := c'
  obtain ⟨ho, hq, he, hes⟩ := h
  refine ⟨?_, hq, congrArg some he, hes⟩
  cases ho with
  | returned hab => exact .returned (hf _ _ hab)
  | raised hx => exact .raised hx
  | aborted => exact .aborted

/-! ### The methods on two queues -/

namespace EventQueue.Shifted

variable {s q q' : EventQueue T C w}

lemma effect (h : s.Shifted q q') : q.effect.Shifted s q'.effect :=
  ⟨.returned .nothing, h, rfl, rfl⟩

lemma display (h : s.Shifted q q') :
    q.display.Shifted s.progressStatus.expectedNb.toNat q'.display :=
  ⟨by rw [EventQueue.display, EventQueue.display, h.eventList], h.overall.currentNb,
    h.overall.expectedNb, by rw [EventQueue.display, EventQueue.display, h.overall.actualNb]⟩

/-- A type has a status in both queues or in none of them. -/
lemma find?_cases (h : s.Shifted q q') (t : T) :
    (q.progressStatusMap.find? t = none ∧ q'.progressStatusMap.find? t = none) ∨
      ∃ a b, q.progressStatusMap.find? t = some a ∧ q'.progressStatusMap.find? t = some b ∧
        ProgressStatus.Shifted (s.expectedShare t) a b := by
  exact rel_cases (h.perType t)

/-- A type without status has none in `s` either. -/
lemma expectedShare_of_none (h : s.Shifted q q') {t : T} (hf : q.progressStatusMap.find? t = none) :
    s.expectedShare t = 0 :=
  share_of_notMem fun ht => SortedMap.find?_eq_none.mp hf (h.registered t ht)

/-! #### The statuses -/

/-- The status of a type once events have been added to it, the total staying in range. -/
lemma addedStatus (h : s.Shifted q q') (t : T) (n : ℚ)
    (hfit : q.share (fun p => p.expectedNb.toNat) t + (staticCast w ⌊n⌋).toNat < 2 ^ w) :
    ProgressStatus.Shifted (s.expectedShare t) (q.addedStatus t n) (q'.addedStatus t n) := by
  rcases h.find?_cases t with ⟨hf, hf'⟩ | ⟨a, b, hf, hf', hab⟩
  · rw [EventQueue.addedStatus, EventQueue.addedStatus, hf, hf', h.expectedShare_of_none hf]
    exact ⟨rfl, rfl, rfl⟩
  · rw [share_of_find? hf] at hfit
    have hexp := hab.expectedNb
    rw [EventQueue.addedStatus, EventQueue.addedStatus, hf, hf']
    refine ⟨rfl, congrArg (· + _) hab.actualNb, ?_⟩
    show (a.expectedNb + staticCast w ⌊n⌋).toNat = (b.expectedNb + staticCast w ⌊n⌋).toNat + _
    rw [BitVec.toNat_add_of_lt hfit, BitVec.toNat_add_of_lt (by omega)]
    omega

lemma addStatus (h : s.Shifted q q') (hq : TotalsAgree q) (t : T) {n : ℚ} (hn : 0 ≤ n)
    (hrange : q.progressStatus.expectedNb.toNat + n < 2 ^ w) :
    s.Shifted (q.addStatus t n) (q'.addStatus t n) := by
  have hfit := toNat_add_staticCast_lt q.progressStatus.expectedNb hn hrange
  have hexp := h.overall.expectedNb
  have hshare := hq.share_le t
  have hstatus := h.addedStatus t n (by omega)
  refine ⟨by rw [key_addStatus, key_addStatus, h.key],
    by rw [eventList_addStatus, eventList_addStatus, h.eventList], ?_, fun t' => ?_,
    fun t' ht' => ?_⟩
  · refine ⟨?_, ?_, ?_⟩
    · rw [progressStatus_addStatus, progressStatus_addStatus]
      exact h.overall.currentNb
    · rw [actualNb_addStatus t hn, actualNb_addStatus t hn, h.overall.actualNb]
    · rw [expectedNb_addStatus t hn, expectedNb_addStatus t hn, BitVec.toNat_add_of_lt hfit,
        BitVec.toNat_add_of_lt (by omega)]
      omega
  · rw [find?_addStatus, find?_addStatus]
    split_ifs with ht
    · rw [ht]
      exact .some hstatus
    · exact h.perType t'
  · exact (mem_keys_addStatus t n t').mpr (Or.inr (h.registered t' ht'))

lemma updateStatus (h : s.Shifted q q') (t : T) (n : ℚ) :
    s.Shifted (q.updateStatus t n) (q'.updateStatus t n) := by
  rcases h.find?_cases t with ⟨hf, hf'⟩ | ⟨a, b, hf, hf', hab⟩
  · rw [updateStatus_of_unregistered (SortedMap.find?_eq_none.mp hf),
      updateStatus_of_unregistered (SortedMap.find?_eq_none.mp hf')]
    exact h
  · rw [updateStatus_of_registered hf, updateStatus_of_registered hf', hab.actualNb,
      h.overall.actualNb]
    refine ⟨h.key, h.eventList, ⟨h.overall.currentNb, rfl, h.overall.expectedNb⟩, fun t' => ?_,
      fun t' ht' => ?_⟩
    · rw [SortedMap.find?_replace, SortedMap.find?_replace, hf, hf']
      split_ifs with ht
      · rw [ht]
        exact .some ⟨hab.currentNb, rfl, hab.expectedNb⟩
      · exact h.perType t'
    · rw [SortedMap.keys_replace]
      exact h.registered t' ht'

lemma reset (h : s.Shifted q q') : s.Shifted q.reset q'.reset := by
  refine ⟨h.key, rfl, ⟨rfl, rfl, h.overall.expectedNb⟩, fun t => ?_, fun t ht => ?_⟩
  · rw [EventQueue.reset, EventQueue.reset, SortedMap.find?_mapValues, SortedMap.find?_mapValues]
    rcases h.find?_cases t with ⟨hf, hf'⟩ | ⟨a, b, hf, hf', hab⟩
    · rw [hf, hf']
      exact .none
    · rw [hf, hf']
      exact .some ⟨rfl, rfl, hab.expectedNb⟩
  · rw [EventQueue.reset, SortedMap.keys_mapValues]
    exact h.registered t ht

/-! #### The events -/

lemma addEvent (h : s.Shifted q q') (e : EventStruct T C) :
    (q.addEvent e).Shifted s Eq (q'.addEvent e) := by
  have hstamp : q.addedStamp e = q'.addedStamp e := by
    rw [addedStamp, addedStamp, EventQueue.addEvent, EventQueue.addEvent, h.eventList]
  rw [addEvent_eq, addEvent_eq, hstamp]
  refine ⟨.returned rfl, ⟨h.key, ?_, h.overall, h.perType, h.registered⟩, rfl, rfl⟩
  rw [withEvent, withEvent, h.eventList]

/-- A pop keeps the two queues in step, whether or not the type of the event has a status. -/
lemma played (h : s.Shifted q q') (k : ℤ) (e : EventStruct T C) :
    s.Shifted (q.played k e) (q'.played k e) := by
  refine ⟨h.key, congrArg (·.erase k) h.eventList,
    ⟨congrArg (· + 1) h.overall.currentNb, h.overall.actualNb, h.overall.expectedNb⟩, fun t => ?_,
    fun t ht => ?_⟩
  · rw [EventQueue.played, EventQueue.played, SortedMap.find?_modify, SortedMap.find?_modify]
    split_ifs with heq
    · rw [heq]
      rcases h.find?_cases e.eventType with ⟨hf, hf'⟩ | ⟨a, b, hf, hf', hab⟩
      · rw [hf, hf']
        exact .none
      · rw [hf, hf']
        exact .some ⟨congrArg (· + 1) hab.currentNb, hab.actualNb, hab.expectedNb⟩
    · exact h.perType t
  · rw [EventQueue.played, SortedMap.keys_modify]
    exact h.registered t ht

lemma popEvent (h : s.Shifted q q') (io : EventStruct T C) :
    (q.popEvent io).Shifted s (ProgressStatusSet.Shifted s) (q'.popEvent io) := by
  cases hfirst : q.eventList.first? with
  | none =>
      have hempty := SortedMap.first?_eq_none.mp hfirst
      rw [popEvent_of_empty hempty, popEvent_of_empty (h.eventList ▸ hempty), describeKey,
        describeKey, h.key]
      exact ⟨.raised (.queueEmpty _), h, rfl, rfl⟩
  | some p =>
      obtain ⟨k, e⟩ := p
      have hfirst' : q'.eventList.first? = some (k, e) := h.eventList ▸ hfirst
      have hplayed := h.played k e
      rcases h.find?_cases e.eventType with ⟨hf, hf'⟩ | ⟨a, b, hf, hf', hab⟩
      · rw [popEvent_of_unregistered hfirst (SortedMap.find?_eq_none.mp hf),
          popEvent_of_unregistered hfirst' (SortedMap.find?_eq_none.mp hf')]
        exact ⟨.raised (.noProgressStatus _ hplayed.display), hplayed, rfl, rfl⟩
      · rw [popEvent_of_registered hfirst hf, popEvent_of_registered hfirst' hf']
        refine ⟨.returned ⟨rfl, .some ?_, .some hplayed.overall⟩, hplayed, rfl, rfl⟩
        exact ⟨congrArg (· + 1) hab.currentNb, hab.actualNb, hab.expectedNb⟩

end EventQueue.Shifted

/-! ### The popping loop on two queues -/

section Play

variable {β : Type} {s q q' : EventQueue T C w}

/-- Two loops in step. -/
structure Playing.Shifted (s : EventQueue T C w) (v v' : Playing T C w β) : Prop where
  queue : s.Shifted v.queue v'.queue
  event : v.event = v'.event
  view : v.view = v'.view
  exception : Option.Rel (EventQueueException.Shifted s.progressStatus.expectedNb.toNat)
    v.exception v'.exception
  popped : v.popped = v'.popped

lemma Playing.Shifted.round {v v' : Playing T C w β} (h : Playing.Shifted s v v')
    (viewOf : EventStruct T C → β) :
    Playing.Shifted s (v.round viewOf) (v'.round viewOf) := by
  have hpop := h.queue.popEvent v.event
  rw [Playing.round, Playing.round, ← h.event, h.view, h.popped]
  generalize v.queue.popEvent v.event = c at hpop
  generalize v'.queue.popEvent v.event = c' at hpop
  obtain ⟨o, p, e, es⟩ := c
  obtain ⟨o', p', e', es'⟩ := c'
  obtain ⟨ho, hp, rfl, rfl⟩ := hpop
  cases ho with
  | returned hab => exact ⟨hp, rfl, rfl, .none, rfl⟩
  | raised hx => exact ⟨hp, rfl, rfl, .some hx, rfl⟩
  | aborted => exact ⟨hp, rfl, rfl, .none, rfl⟩

variable [DecidableEq β]

/-- The loop on the two queues goes through the same rounds. -/
theorem EventQueue.Shifted.play (h : s.Shifted q q') (viewOf : EventStruct T C → β)
    (initial target : β) (io : EventStruct T C) :
    Playing.Shifted s (q.play viewOf initial target io) (q'.play viewOf initial target io) := by
  refine (playLoop viewOf target).exec_related (playLoop viewOf target)
    (R := Playing.Shifted s) (fun v v' hv => ?_) (fun v v' _ hv => hv.round viewOf)
    ⟨h, rfl, rfl, .none, rfl⟩
  have hexception : v.exception.isNone = v'.exception.isNone := by
    rcases rel_cases hv.exception with ⟨hx, hy⟩ | ⟨x, y, hx, hy, -⟩
    · rw [hx, hy]
    · rw [hx, hy]
      rfl
  simp only [playLoop, isQueueDone, hexception, hv.queue.eventList, hv.view]

end Play

/-! ### Calls and sessions on two queues -/

namespace EventQueue.Shifted

variable {s q q' : EventQueue T C w}

lemma run (h : s.Shifted q q') (io : EventStruct T C) : (q.run io).Shifted s Eq (q'.run io) := by
  have hplay := h.play EventStruct.eventType (bkgReq : T) brkPt io
  refine ⟨?_, hplay.queue, hplay.event, hplay.popped⟩
  rw [EventQueue.run, EventQueue.run]
  rcases rel_cases hplay.exception with ⟨hx, hy⟩ | ⟨x, y, hx, hy, hxy⟩
  · simp only [hx, hy]
    exact .returned rfl
  · simp only [hx, hy]
    exact .raised hxy

lemma select (h : s.Shifted q q') (io : EventStruct T C) (d : DateTime) :
    (q.select io d).Shifted s Eq (q'.select io d) := by
  have hplay := h.play EventStruct.eventTime (defaultEventOldestDateTime T) d io
  have hfind : q.hasEventDateTime d = q'.hasEventDateTime d := by
    rw [hasEventDateTime, hasEventDateTime, h.eventList]
  rw [EventQueue.select, EventQueue.select, hfind]
  split_ifs with hno
  · exact ⟨.returned rfl, h, rfl, rfl⟩
  · refine ⟨?_, hplay.queue, hplay.event, hplay.popped⟩
    rcases rel_cases hplay.exception with ⟨hx, hy⟩ | ⟨x, y, hx, hy, hxy⟩
    · simp only [hx, hy, hplay.view]
      split_ifs
      · exact .returned rfl
      · exact .aborted
    · simp only [hx, hy]
      exact .raised hxy

/-- Every call has the same effect on the two queues. -/
theorem exec (h : s.Shifted q q') (hq : TotalsAgree q) {op : Op T C} (hrange : op.InRange q) :
    (op.exec q).Shifted s (op.exec q') := by
  cases op with
  | addStatus t n => exact (h.addStatus hq t hrange.1 hrange.2.1).effect
  | updateStatus t n => exact (h.updateStatus t n).effect
  | addEvent e => exact (h.addEvent e).effect fun a b hab => hab ▸ .flag a
  | popEvent e => exact (h.popEvent e).effect fun a b hab => .statuses hab
  | run e => exact (h.run e).effect fun _ _ _ => .nothing
  | select e d => exact (h.select e d).effect fun a b hab => hab ▸ .flag a
  | reset => exact h.reset.effect

/-- The calls of a list have the same effects on the two queues, one after the other. -/
theorem exchanges {ops : List (Op T C)} (h : s.Shifted q q') (hq : TotalsAgree q)
    (hops : q.Meets Op.InRange ops) :
    List.Forall₂ (Exchange.Shifted s) (q.exchanges ops) (q'.exchanges ops) := by
  induction ops generalizing q q' with
  | nil => exact .nil
  | cons op ops ih =>
      obtain ⟨hrange, hops⟩ := hops
      have heff := h.exec hq hrange
      have hhead : Exchange.Shifted s (op, op.exec q) (op, op.exec q') := ⟨rfl, heff⟩
      have halive := heff.outcome.aborted_iff
      by_cases ho : (op.exec q).outcome = .aborted
      · rw [exchanges_cons_aborted ho, exchanges_cons_aborted (halive.mp ho)]
        exact .cons hhead .nil
      · rw [exchanges_cons ho, exchanges_cons fun ho' => ho (halive.mpr ho')]
        exact .cons hhead (ih heff.queue (hq.exec hrange ho) (hops ho))

end EventQueue.Shifted

/-! ### Replaying after a reset -/

/-- A queue on which a zero status has been added for each type of a list. -/
def EventQueue.withTypes (key : String) (ts : List T) : EventQueue T C w :=
  prepared key (ts.map fun t => (t, 0))

lemma staticCast_zero : staticCast w 0 = 0 := by
  rw [staticCast, Int.floor_zero]
  rfl

/-- The statuses of such a queue are zero, and its types are those of the list. -/
lemma withTypes_spec (key : String) (ts : List T) :
    (withTypes key ts : EventQueue T C w).key = key ∧
      (withTypes key ts : EventQueue T C w).progressStatus = .zero ∧
      ∀ t, (withTypes key ts : EventQueue T C w).progressStatusMap.find? t
        = if t ∈ ts then some .zero else none := by
  induction ts using List.reverseRecOn with
  | nil => exact ⟨rfl, rfl, fun t => by simp [withTypes, prepared, fresh]⟩
  | append_singleton ts t₀ ih =>
      obtain ⟨hkey, hoverall, hfind⟩ := ih
      have hsnoc : (withTypes key (ts ++ [t₀]) : EventQueue T C w)
          = (withTypes key ts).addStatus t₀ 0 := by
        simp [withTypes, prepared]
      have hstatus : (withTypes key ts : EventQueue T C w).addedStatus t₀ 0 = .zero := by
        rw [addedStatus, hfind]
        split_ifs
        · simp [ProgressStatus.zero, staticCast_zero]
        · simp [ProgressStatus.zero, ProgressStatus.ofExpected, staticCast_zero]
      refine ⟨by rw [hsnoc, key_addStatus, hkey], ?_, fun t => ?_⟩
      · rw [hsnoc, progressStatus_addStatus, addedOverall, hoverall]
        simp [ProgressStatus.zero, staticCast_zero]
      · rw [hsnoc, find?_addStatus, hstatus, hfind]
        by_cases ht : t = t₀
        · simp [ht]
        · simp [ht]

/-- After a reset the queue is in step with a new one. -/
lemma shifted_reset (s : EventQueue T C w) {ts : List T}
    (hts : ∀ t, t ∈ ts ↔ t ∈ s.progressStatusMap.keys) :
    s.Shifted s.reset (withTypes s.key ts) := by
  obtain ⟨hkey, hoverall, hfind⟩ := withTypes_spec (C := C) (w := w) s.key ts
  refine ⟨hkey.symm, (eventList_prepared _ _).symm, ?_, fun t => ?_, fun t ht => ?_⟩
  · rw [hoverall]
    exact ⟨rfl, rfl, (Nat.zero_add _).symm⟩
  · rw [hfind, EventQueue.reset, SortedMap.find?_mapValues]
    by_cases ht : t ∈ s.progressStatusMap.keys
    · obtain ⟨a, ha⟩ := SortedMap.exists_find? ht
      rw [if_pos ((hts t).mpr ht), ha, expectedShare, share_of_find? ha]
      exact .some ⟨rfl, rfl, (Nat.zero_add _).symm⟩
    · rw [if_neg fun h => ht ((hts t).mp h), SortedMap.find?_eq_none.mpr ht]
      exact .none
  · rw [EventQueue.reset, SortedMap.keys_mapValues]
    exact ht

/-- **`reset` makes the queue replayable.** Let `s` be a queue reached with all totals in range.
Whatever calls are made on it after a reset, as long as the totals stay in range, they have one
after the other the effects that they have on a new queue of the same key on which a zero status has
been added for each type registered in `s`: the expected numbers alone differ, by those that `s`
had. -/
theorem reset_replayable {key : String} {ls : List (Exchange T C w)} {s : EventQueue T C w}
    (hs : Session Op.InRange (.fresh key) ls s) {ts : List T}
    (hts : ∀ t, t ∈ ts ↔ t ∈ s.progressStatusMap.keys) {ops : List (Op T C)}
    (hops : s.reset.Meets Op.InRange ops) :
    s.Shifted s.reset (withTypes s.key ts) ∧
      List.Forall₂ (Exchange.Shifted s) (s.reset.exchanges ops)
        ((withTypes s.key ts : EventQueue T C w).exchanges ops) := by
  have htotals : TotalsAgree s :=
    hs.happens.invariant (fun _ _ _ hq hx => hq.step hx) (.fresh key)
  have hshifted := shifted_reset s hts
  exact ⟨hshifted, hshifted.exchanges htotals.reset hops⟩

/-- The sample queue built, played in part and reset. -/
def replayedQueue : EventQueue SampleType ℕ 32 :=
  (fresh "EQ01" : EventQueue SampleType ℕ 32).after
    [.addStatus .bkgReq 3, .addEvent (sampleEvent .bkgReq 0 1), .addEvent (sampleEvent .bkgReq 0 2),
      .popEvent (sampleEvent .bkgReq 0 0)]

/-- An event of a type without status, whose pop raises, and one whose pop returns. -/
def replayingOps : List (Op SampleType ℕ) :=
  [.addStatus .bkgReq 2, .addEvent (sampleEvent .brkPt 0 3), .addEvent (sampleEvent .bkgReq 0 4),
    .popEvent (sampleEvent .bkgReq 0 0), .run (sampleEvent .bkgReq 0 0)]

theorem reset_replayable_sample :
    List.Forall₂ (Exchange.Shifted replayedQueue) (replayedQueue.reset.exchanges replayingOps)
      ((withTypes "EQ01" [.bkgReq] : EventQueue SampleType ℕ 32).exchanges replayingOps) :=
  (reset_replayable (s := replayedQueue) (session_exchanges (by decide +kernel))
    (by intro t; cases t <;> decide +kernel) (by decide +kernel)).2

end Sevmgr
