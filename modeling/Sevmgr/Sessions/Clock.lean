import Sevmgr.Sessions.Conservation

/-!
The clock of the simulation, which is the stamp of the last event popped.

* `clock` and `Punctual`: no event is added with a requested stamp that lies before the clock.
* `ClockInv`: the stamps popped never decrease, and those pending are at or after all of them.
  `ClockInv.step` is one happening.
* `Session.clock_monotone`: in a punctual session the clock never goes back, and at no point, be it
  between two pops of one call, does a pending event lie before it.
-/

namespace Sevmgr

open EventQueue

/-! ### The clock -/

section Clock

variable {T C : Type}

/-- The stamp of the last event popped. -/
def clock (h : List (Happening T C)) : Option ℤ :=
  (popped h).getLast?.map EventStruct.eventTimeStamp

/-- The happening does not add an event before the stamp `now`. -/
def Happening.NotBefore (now : Option ℤ) : Happening T C → Prop
  | .added e => ∀ s ∈ now, s ≤ e.eventTimeStamp
  | _ => True

instance (now : Option ℤ) : ∀ x : Happening T C, Decidable (x.NotBefore now)
  | .added e => inferInstanceAs (Decidable (∀ s ∈ now, s ≤ e.eventTimeStamp))
  | .statusAdded _ _ | .statusUpdated _ _ | .popped _ | .cleared => .isTrue trivial

/-- Every event is added with a requested stamp at or after the clock. -/
def Punctual (h : List (Happening T C)) : Prop :=
  ∀ h₁ x h₂, h = h₁ ++ x :: h₂ → x.NotBefore (clock h₁)

instance (h : List (Happening T C)) : Decidable (Punctual h) :=
  decidable_of_iff (∀ i : Fin h.length, (h.get i).NotBefore (clock (h.take i))) <| by
    refine ⟨?_, ?_⟩
    · rintro hall h₁ x h₂ rfl
      have hi := hall ⟨h₁.length, by simp⟩
      simpa using hi
    · intro hp i
      exact hp _ _ (h.drop (i + 1)) (by simp)

lemma Punctual.of_append {h h' : List (Happening T C)} (hp : Punctual (h ++ h')) : Punctual h := by
  rintro h₁ x h₂ rfl
  exact hp h₁ x (h₂ ++ h') (by simp)

lemma Punctual.notBefore {h : List (Happening T C)} {x : Happening T C} (hp : Punctual (h ++ [x])) :
    x.NotBefore (clock h) := hp h x [] rfl

/-- Once the stamps popped never decrease, none lies after the clock. -/
lemma exists_le_clock {h : List (Happening T C)}
    (hs : ((popped h).map EventStruct.eventTimeStamp).Pairwise (· ≤ ·)) {e : EventStruct T C}
    (he : e ∈ popped h) : ∃ s ∈ clock h, e.eventTimeStamp ≤ s := by
  obtain ⟨l, last, hl⟩ := (List.eq_nil_or_concat' (popped h)).resolve_left (List.ne_nil_of_mem he)
  refine ⟨last.eventTimeStamp, by simp [clock, hl], ?_⟩
  rw [hl, List.mem_append, List.mem_singleton] at he
  rw [hl, List.map_append, List.pairwise_append] at hs
  rcases he with he | rfl
  · exact hs.2.2 _ (List.mem_map_of_mem he) _ (List.mem_singleton_self _)
  · exact le_rfl

end Clock

/-! ### The invariant -/

variable {T C : Type} [Stdair T] {w : ℕ} {q q' : EventQueue T C w} {h : List (Happening T C)}

/-- The stamps popped never decrease and the pending ones are not before any of them. -/
structure ClockInv (h : List (Happening T C)) (q : EventQueue T C w) : Prop where
  stamps : StampsAgree q
  sorted : ((popped h).map EventStruct.eventTimeStamp).Pairwise (· ≤ ·)
  pending : ∀ e ∈ popped h, ∀ k ∈ q.eventList.keys, e.eventTimeStamp ≤ k

namespace ClockInv

lemma prepared (key : String) (regs : List (T × ℚ)) :
    ClockInv [] (EventQueue.prepared key regs : EventQueue T C w) :=
  ⟨stampsAgree_prepared key regs, List.Pairwise.nil, fun _ he => absurd he List.not_mem_nil⟩

/-- No event popped lies after an event that is added on time. -/
lemma le_of_notBefore (hq : ClockInv h q) {e : EventStruct T C}
    (hp : (Happening.added e).NotBefore (clock h)) {e' : EventStruct T C} (he' : e' ∈ popped h) :
    e'.eventTimeStamp ≤ e.eventTimeStamp := by
  obtain ⟨s, hs, hle⟩ := exists_le_clock hq.sorted he'
  exact hle.trans (hp s hs)

lemma added (hq : ClockInv h q) {e : EventStruct T C}
    (hp : (Happening.added e).NotBefore (clock h)) :
    ClockInv (h ++ [.added e]) (q.withEvent (q.addedStamp e) e) := by
  have hpopped : popped (h ++ [.added e]) = popped h := by simp
  refine ⟨hq.stamps.step (.added q e), by rw [hpopped]; exact hq.sorted, ?_⟩
  rw [hpopped]
  intro e' he' k hk
  rcases (SortedMap.mem_keys_insert (q.addedStamp_notMem e)).mp hk with rfl | hk
  · calc e'.eventTimeStamp ≤ e.eventTimeStamp := hq.le_of_notBefore hp he'
      _ ≤ q.addedStamp e := q.le_addedStamp e
  · exact hq.pending e' he' k hk

lemma popped (hq : ClockInv h q) {k : ℤ} {e : EventStruct T C}
    (hfirst : q.eventList.first? = some (k, e)) : ClockInv (h ++ [.popped e]) (q.played k e) := by
  have hk : e.eventTimeStamp = k := hq.stamps _ (SortedMap.mem_of_first? hfirst)
  have hmem : k ∈ q.eventList.keys := SortedMap.mem_keys_of_mem (SortedMap.mem_of_first? hfirst)
  refine ⟨hq.stamps.step (.popped hfirst), ?_, ?_⟩
  · rw [popped_append, popped_popped, List.map_append, List.pairwise_append]
    refine ⟨hq.sorted, List.pairwise_singleton _ _, fun s hs s' hs' => ?_⟩
    obtain ⟨e', he', rfl⟩ := List.mem_map.mp hs
    rw [List.map_singleton, List.mem_singleton] at hs'
    rw [hs', hk]
    exact hq.pending e' he' k hmem
  · intro e' he' k' hk'
    replace hk' : k' ∈ q.eventList.keys := (SortedMap.mem_keys_erase.mp hk').1
    rw [popped_append, popped_popped, List.mem_append, List.mem_singleton] at he'
    rcases he' with he' | rfl
    · exact hq.pending e' he' k' hk'
    · rw [hk]
      exact SortedMap.le_of_first? hfirst hk'

/-- One happening does not turn the clock back. -/
theorem step {x : Happening T C} (hq : ClockInv h q) (hp : Punctual (h ++ [x]))
    (hx : HappensIf Op.Plays q x q') : ClockInv (h ++ [x]) q' := by
  rcases hx.cases_of_plays with ⟨e, rfl, -, rfl⟩ | ⟨k, e, rfl, hfirst, rfl⟩
  · exact hq.added hp.notBefore
  · exact hq.popped hfirst

end ClockInv

/-! ### Sessions -/

/-- The invariant holds along every punctual history. -/
lemma clockInv_of_run {key : String} {regs : List (T × ℚ)}
    (hr : Run (HappensIf Op.Plays) (.prepared key regs) h q) (hp : Punctual h) : ClockInv h q := by
  refine hr.history (H := fun h q => Punctual h → ClockInv h q) (fun _ => .prepared key regs) ?_ hp
  intro h q x q' ih hx hp
  exact (ih hp.of_append).step hp hx

/-- A queue and a happening determine the next queue. -/
lemma Happens.unique {x : Happening T C} {q'' : EventQueue T C w} (hx : Happens q x q')
    (hx' : Happens q x q'') : q' = q'' := by
  cases hx with
  | popped hfirst =>
      cases hx' with
      | popped hfirst' =>
          rw [hfirst, Option.some.injEq, Prod.mk.injEq] at hfirst'
          rw [hfirst'.1]
  | _ => cases hx'; rfl

/-- **The clock never goes back** in a session that adds and plays events of registered types, none
of them requested before the clock: the stamps popped never decrease, and at every point no pending
event has a stamp smaller than the last one popped. -/
theorem Session.clock_monotone {key : String} {regs : List (T × ℚ)} {ls : List (Exchange T C w)}
    (hs : Session Op.Plays (.prepared key regs) ls q) (hp : Punctual (history ls)) :
    ((popped (history ls)).map EventStruct.eventTimeStamp).Pairwise (· ≤ ·) ∧
      ∀ h₁ h₂ q₁, history ls = h₁ ++ h₂ →
        Run Happens (.prepared key regs : EventQueue T C w) h₁ q₁ →
        ∀ s ∈ clock h₁, ∀ e ∈ q₁.eventList.values, s ≤ e.eventTimeStamp := by
  refine ⟨(clockInv_of_run hs.happens hp).sorted, fun h₁ h₂ q₁ hh hr s hsc e he => ?_⟩
  have hrun := hs.happens
  rw [hh] at hrun hp
  obtain ⟨q₁', hr', -⟩ := Run.append_iff.mp hrun
  have hr'' : Run Happens (.prepared key regs) h₁ q₁' := hr'.mono fun _ _ _ hx => hx.1
  obtain rfl : q₁ = q₁' := hr.unique (fun _ _ _ _ hx hx' => hx.unique hx') hr''
  have hinv := clockInv_of_run hr' hp.of_append
  obtain ⟨last, hlast, rfl⟩ := Option.map_eq_some_iff.mp hsc
  obtain ⟨⟨k, v⟩, hkv, rfl⟩ := List.mem_map.mp he
  rw [hinv.stamps _ hkv]
  exact hinv.pending last (List.mem_of_getLast? hlast) k (SortedMap.mem_keys_of_mem hkv)

theorem Session.clock_monotone_sample :
    ((popped (history (sampleStart.exchanges sampleOps))).map EventStruct.eventTimeStamp).Pairwise
      (· ≤ ·) :=
  (Session.clock_monotone (session_exchanges
    (show sampleStart.Admits Op.Plays sampleOps by decide +kernel)) (by decide +kernel)).1

end Sevmgr
