import Sevmgr.Sessions.Clock

/-!
The order in which two events of one requested stamp are served.

A pop frees a stamp, and `addEvent` gives a freed stamp away again although events that were moved
past it are still pending. So the later of two simultaneous events is served first when it finds
their stamp free, and after the other one when it finds it taken.

* `PoppedBefore`: the order of service in a list of popped events.
* `poppedBefore_of_lt`: of two pending events the one of the smaller stamp is popped first.
* `mem_keys_of_run`: a stamp stays taken until an event is popped from it.
* `Session.served_by_stamp`: the order of service of two events with the same requested stamp.
  `not_first_come_first_served` is the case in which the later one is served first.
-/

namespace Sevmgr

open EventQueue

/-! ### The order of service -/

/-- Whenever `b` is met in the list, `a` has been met. -/
def PoppedBefore {α : Type} (a b : α) (l : List α) : Prop := ∀ l₁ l₂, l = l₁ ++ b :: l₂ → a ∈ l₁

namespace PoppedBefore

variable {α : Type} {a b c : α} {l : List α}

lemma nil : PoppedBefore a b [] := fun l₁ l₂ h => absurd h (by simp)

lemma head (hab : a ≠ b) : PoppedBefore a b (a :: l) := by
  intro l₁ l₂ h
  cases l₁ with
  | nil => exact absurd (List.cons.inj h).1 hab
  | cons a' l₁ =>
      rw [(List.cons.inj h).1]
      exact List.mem_cons_self

lemma cons (hc : c ≠ b) (h : PoppedBefore a b l) : PoppedBefore a b (c :: l) := by
  intro l₁ l₂ hl
  cases l₁ with
  | nil => exact absurd (List.cons.inj hl).1 hc
  | cons c' l₁ => exact List.mem_cons_of_mem _ (h l₁ l₂ (List.cons.inj hl).2)

end PoppedBefore

/-! ### Pending events along a run -/

variable {T C : Type} [Stdair T] {w : ℕ} {q q' : EventQueue T C w} {h : List (Happening T C)}

/-- Of two pending events the one of the smaller stamp is popped first. -/
lemma poppedBefore_of_lt (hq : StampsAgree q) (hr : Run (HappensIf Op.Plays) q h q') {k k' : ℤ}
    {e e' : EventStruct T C} (hk : k < k') (he : (k, e) ∈ q.eventList.entries)
    (he' : (k', e') ∈ q.eventList.entries) : PoppedBefore e e' (popped h) := by
  induction hr with
  | nil q => exact .nil
  | @cons q q₁ q' x h hx _ ih =>
      have hstamps := hq.step hx.1
      have hstamp : e.eventTimeStamp = k := hq _ he
      have hstamp' : e'.eventTimeStamp = k' := hq _ he'
      rcases hx.cases_of_plays with ⟨y, rfl, -, rfl⟩ | ⟨k₀, e₀, rfl, hfirst, rfl⟩
      · exact ih hstamps ((mem_withEvent (q.addedStamp_notMem y)).mpr (Or.inr he))
          ((mem_withEvent (q.addedStamp_notMem y)).mpr (Or.inr he'))
      · show PoppedBefore e e' (e₀ :: popped h)
        have hmem := SortedMap.mem_of_first? hfirst
        have hstamp₀ : e₀.eventTimeStamp = k₀ := hq _ hmem
        have hle : k₀ ≤ k := SortedMap.le_of_first? hfirst (SortedMap.mem_keys_of_mem he)
        rcases eq_or_lt_of_le hle with rfl | hlt
        · -- the first event is the earlier of the two
          obtain rfl := SortedMap.value_unique hmem he
          refine .head fun heq => ?_
          rw [heq] at hstamp
          omega
        · have hne : e₀ ≠ e' := by
            rintro rfl
            omega
          exact .cons hne (ih hstamps (SortedMap.mem_erase.mpr ⟨he, hlt.ne'⟩)
            (SortedMap.mem_erase.mpr ⟨he', (hlt.trans hk).ne'⟩))

/-- A stamp stays taken until an event is popped from it. -/
lemma mem_keys_of_run (hq : StampsAgree q) (hr : Run (HappensIf Op.Plays) q h q') {k : ℤ}
    (hk : k ∈ q.eventList.keys) (hpop : ∀ e ∈ popped h, e.eventTimeStamp ≠ k) :
    k ∈ q'.eventList.keys := by
  induction hr with
  | nil q => exact hk
  | @cons q q₁ q' x h hx _ ih =>
      have hstamps := hq.step hx.1
      rcases hx.cases_of_plays with ⟨y, rfl, -, rfl⟩ | ⟨k₀, e₀, rfl, hfirst, rfl⟩
      · exact ih hstamps ((SortedMap.mem_keys_insert (q.addedStamp_notMem y)).mpr (Or.inr hk)) hpop
      · have hstamp₀ : e₀.eventTimeStamp = k₀ := hq _ (SortedMap.mem_of_first? hfirst)
        have hne : k ≠ k₀ := fun heq =>
          hpop e₀ List.mem_cons_self (hstamp₀.trans heq.symm)
        exact ih hstamps (SortedMap.mem_keys_erase.mpr ⟨hk, hne⟩)
          fun e he => hpop e (List.mem_cons_of_mem _ he)

/-! ### Two events of one requested stamp -/

section Twice

variable {q₁ q₂ : EventQueue T C w} {x y : EventStruct T C}

/-- From the requested stamp to that of the first event every stamp is taken, but perhaps the
requested stamp itself. -/
lemma mem_keys_between (hq : StampsAgree q₁)
    (hr : Run (HappensIf Op.Plays) (q₁.withEvent (q₁.addedStamp x) x) h q₂)
    {k : ℤ} (hxk : x.eventTimeStamp ≤ k) (hkx : k ≤ q₁.addedStamp x)
    (hpop : ∀ e ∈ popped h, e.eventTimeStamp ≠ k) : k ∈ q₂.eventList.keys := by
  refine mem_keys_of_run (hq.step (.added q₁ x)) hr ?_ hpop
  rw [withEvent, SortedMap.mem_keys_insert (q₁.addedStamp_notMem x)]
  rcases eq_or_lt_of_le hkx with rfl | hlt
  · exact Or.inl rfl
  · exact Or.inr ((q₁.isNearestFree_addedStamp x).taken hxk hlt)

/-- The second event goes past the first one when it finds the requested stamp taken. -/
lemma addedStamp_lt_of_mem (hq : StampsAgree q₁)
    (hr : Run (HappensIf Op.Plays) (q₁.withEvent (q₁.addedStamp x) x) h q₂)
    (hsame : x.eventTimeStamp = y.eventTimeStamp)
    (hpop : ∀ e ∈ popped h, e.eventTimeStamp ≤ y.eventTimeStamp)
    (ht : y.eventTimeStamp ∈ q₂.eventList.keys) : q₁.addedStamp x < q₂.addedStamp y := by
  by_contra hge
  have hle := q₂.le_addedStamp y
  apply q₂.addedStamp_notMem y
  rcases eq_or_lt_of_le hle with heq | hlt
  · rwa [← heq]
  · refine mem_keys_between hq hr (by omega) (by omega) fun e he heq => ?_
    have := hpop e he
    omega

/-- The second event takes the requested stamp when it is free. -/
lemma addedStamp_of_notMem (ht : y.eventTimeStamp ∉ q₂.eventList.keys) :
    q₂.addedStamp y = y.eventTimeStamp :=
  (q₂.isNearestFree_addedStamp y).unique (.self ht)

/-- The clock has been kept when the second event is added. -/
lemma clockInv_between {key : String} {regs : List (T × ℚ)} {ls₁ ls₂ : List (Exchange T C w)}
    (hs₁ : Session Op.Plays (.prepared key regs) ls₁ q₁) (hx : Op.Plays q₁ (.addEvent x))
    (hs₂ : Session Op.Plays (q₁.withEvent (q₁.addedStamp x) x) ls₂ q₂)
    (hp : Punctual (history ls₁ ++ .added x :: history ls₂)) :
    ClockInv (history ls₁ ++ .added x :: history ls₂) q₂ := by
  have hadd : HappensIf Op.Plays q₁ (.added x) (q₁.withEvent (q₁.addedStamp x) x) := by
    refine ⟨.added q₁ x, ?_⟩
    rintro _ ⟨⟩
    exact hx
  exact clockInv_of_run (hs₁.happens.append (.cons hadd hs₂.happens)) hp

end Twice

/-- **The order of service of two events with the same requested stamp.** In a punctual session, let
`y` be added while `x`, added before it with the same requested stamp, is pending. If that stamp is
taken when `y` is added, then `x` is popped before `y`, and this is so whenever the stamp lies after
the clock. If it is free, then `y` takes it and is popped before `x`. -/
theorem Session.served_by_stamp {key : String} {regs : List (T × ℚ)}
    {ls₁ ls₂ ls₃ : List (Exchange T C w)} {q₁ q₂ q₃ : EventQueue T C w} {x y : EventStruct T C}
    (hs₁ : Session Op.Plays (.prepared key regs) ls₁ q₁) (hx : Op.Plays q₁ (.addEvent x))
    (hs₂ : Session Op.Plays (q₁.addEvent x).queue ls₂ q₂)
    (hs₃ : Session Op.Plays (q₂.addEvent y).queue ls₃ q₃)
    (hp : Punctual (history ls₁ ++ .added x :: history ls₂ ++ .added y :: history ls₃))
    (hsame : x.eventTimeStamp = y.eventTimeStamp)
    (hpending : (q₁.addEvent x).event ∈ q₂.eventList.values) :
    (y.eventTimeStamp ∈ q₂.eventList.keys →
        PoppedBefore (q₁.addEvent x).event (q₂.addEvent y).event (popped (history ls₃))) ∧
      (y.eventTimeStamp ∉ q₂.eventList.keys →
        PoppedBefore (q₂.addEvent y).event (q₁.addEvent x).event (popped (history ls₃))) ∧
      ((∀ s ∈ clock (history ls₁ ++ .added x :: history ls₂), s < y.eventTimeStamp) →
        y.eventTimeStamp ∈ q₂.eventList.keys) := by
  rw [addEvent_eq] at hs₂ hs₃ hpending ⊢
  rw [addEvent_eq]
  have hpast : Punctual (history ls₁ ++ .added x :: history ls₂ ++ [.added y]) := by
    rw [List.append_cons] at hp
    exact hp.of_append
  have hinv := clockInv_between hs₁ hx hs₂ hpast.of_append
  have hsub : ∀ e ∈ popped (history ls₂),
      e ∈ popped (history ls₁ ++ .added x :: history ls₂) := fun e he => by
    rw [popped_append]
    exact List.mem_append_right _ he
  have hpop : ∀ e ∈ popped (history ls₂), e.eventTimeStamp ≤ y.eventTimeStamp := fun e he =>
    hinv.le_of_notBefore hpast.notBefore (hsub e he)
  -- both events are pending after the second insertion, each under its own stamp
  have hstamps : StampsAgree (q₂.withEvent (q₂.addedStamp y) y) := hinv.stamps.step (.added q₂ y)
  have hxmem : (q₁.addedStamp x, x.stampedAt (q₁.addedStamp x)) ∈ q₂.eventList.entries :=
    hinv.stamps.mem_entries hpending
  have hxmem' := (mem_withEvent (q₂.addedStamp_notMem y) (e := y)).mpr (Or.inr hxmem)
  have hymem' := (mem_withEvent (q₂.addedStamp_notMem y) (e := y)).mpr (Or.inl rfl)
  refine ⟨fun ht => ?_, fun ht => ?_, fun hclock => ?_⟩
  · have hlt := addedStamp_lt_of_mem hs₁.stampsAgree hs₂.happens hsame hpop ht
    exact poppedBefore_of_lt hstamps hs₃.happens hlt hxmem' hymem'
  · have hne : q₁.addedStamp x ≠ y.eventTimeStamp := fun heq =>
      ht (heq ▸ SortedMap.mem_keys_of_mem hxmem)
    have hle := q₁.le_addedStamp x
    have hyk := addedStamp_of_notMem ht
    exact poppedBefore_of_lt hstamps hs₃.happens (by omega) hymem' hxmem'
  · refine mem_keys_between hs₁.stampsAgree hs₂.happens hsame.le (hsame ▸ q₁.le_addedStamp x)
      fun e he heq => ?_
    obtain ⟨s, hs, hle⟩ := exists_le_clock hinv.sorted (hsub e he)
    have := hclock s hs
    omega

/-- A pop of the sample queue. -/
def samplePop : Op SampleType ℕ := .popEvent (sampleEvent .bkgReq 0 0)

/-- Two booking requests of one millisecond, the second of which finds it taken. -/
theorem Session.served_by_stamp_sample :
    let x := sampleEvent .bkgReq 0 1
    let y := sampleEvent .bkgReq 0 2
    let q₂ := (sampleStart.addEvent x).queue
    PoppedBefore (sampleStart.addEvent x).event (q₂.addEvent y).event
      (popped (history ((q₂.addEvent y).queue.exchanges [samplePop, samplePop]))) := by
  intro x y q₂
  have hs₁ : Session Op.Plays sampleStart [] sampleStart := .nil _
  have hs₂ : Session Op.Plays q₂ [] q₂ := .nil _
  have hops : (q₂.addEvent y).queue.Admits Op.Plays [samplePop, samplePop] := by decide +kernel
  have hx : Op.Plays sampleStart (.addEvent x) := by decide +kernel
  have hp : Punctual (.added x :: .added y
      :: history ((q₂.addEvent y).queue.exchanges [samplePop, samplePop])) := by decide +kernel
  have hpending : (sampleStart.addEvent x).event ∈ q₂.eventList.values := by decide +kernel
  have ht : y.eventTimeStamp ∈ q₂.eventList.keys := by decide +kernel
  exact (Session.served_by_stamp hs₁ hx hs₂ (session_exchanges hops) hp rfl hpending).1 ht

/-- A booking request moved past its stamp, and a later one that finds the stamp free again. -/
theorem not_first_come_first_served :
    ∃ (ls₁ ls₂ ls₃ : List (Exchange SampleType ℕ 32)) (q₁ q₂ q₃ : EventQueue SampleType ℕ 32)
      (x y : EventStruct SampleType ℕ),
      Session Op.Plays sampleStart ls₁ q₁ ∧ Op.Plays q₁ (.addEvent x) ∧
      Session Op.Plays (q₁.addEvent x).queue ls₂ q₂ ∧ Op.Plays q₂ (.addEvent y) ∧
      Session Op.Plays (q₂.addEvent y).queue ls₃ q₃ ∧
      Punctual (history ls₁ ++ .added x :: history ls₂ ++ .added y :: history ls₃) ∧
      x.eventTimeStamp = y.eventTimeStamp ∧ (q₁.addEvent x).event ∈ q₂.eventList.values ∧
      (q₂.addEvent y).event ∈ popped (history ls₃) ∧
      (q₁.addEvent x).event ∉ popped (history ls₃) := by
  let x := sampleEvent .bkgReq 0 2
  let y := sampleEvent .bkgReq 0 3
  let q₁ := sampleStart.after [.addEvent (sampleEvent .bkgReq 0 1)]
  let q₂ := (q₁.addEvent x).queue.after [samplePop]
  have h₁ : sampleStart.Admits Op.Plays [.addEvent (sampleEvent .bkgReq 0 1)] := by decide +kernel
  have h₂ : (q₁.addEvent x).queue.Admits Op.Plays [samplePop] := by decide +kernel
  have h₃ : (q₂.addEvent y).queue.Admits Op.Plays [samplePop] := by decide +kernel
  refine ⟨_, _, _, q₁, q₂, _, x, y, session_exchanges h₁, ?_, session_exchanges h₂, ?_,
    session_exchanges h₃, ?_, rfl, ?_, ?_, ?_⟩ <;> decide +kernel

end Sevmgr
