import Sevmgr.Sessions.Pending

/-!
The current numbers of events over a session.

A pop counts the event overall and for its type, by separate code, and a reset clears both counts.
`addStatus` on a type that already has a status sets the number of that type to zero and leaves the
overall number alone.

* `sinceReset`, `nbPopped`: what the current numbers should be, read off the history.
* `CurrentNumbersAgree`: the overall number is the sum over the types, and the number of each type
  is that of its events popped since the last reset.
* `CurrentInv.step`: one happening keeps them in agreement, as long as no status is added to a type
  whose number has moved.
* `currentNumbersAgree_iff`: along a session they agree in every state reached if and only if no
  call adds a status to such a type. `currentNumbers_disagree` is the sample queue built a second
  time.
-/

namespace Sevmgr

open EventQueue

variable {T C : Type} [Stdair T] {w : ℕ}

/-! ### What the numbers should be -/

/-- The happenings after the last reset. -/
def sinceReset (h : List (Happening T C)) : List (Happening T C) :=
  h.foldl (fun l x => match x with | .cleared => [] | x => l ++ [x]) []

/-- The number of events of the type `t` popped since the last reset. -/
def nbPopped (t : T) (h : List (Happening T C)) : ℕ :=
  (popped (sinceReset h)).countP fun e => e.eventType = t

@[simp] lemma nbPopped_nil (t : T) : nbPopped t ([] : List (Happening T C)) = 0 := rfl

@[simp] lemma nbPopped_cleared (t : T) (h : List (Happening T C)) :
    nbPopped t (h ++ [.cleared]) = 0 := by
  simp [nbPopped, sinceReset, popped]

@[simp] lemma nbPopped_popped (t : T) (h : List (Happening T C)) (e : EventStruct T C) :
    nbPopped t (h ++ [.popped e]) = nbPopped t h + if e.eventType = t then 1 else 0 := by
  simp [nbPopped, sinceReset, popped, List.countP_append, List.countP_cons]

@[simp] lemma nbPopped_added (t : T) (h : List (Happening T C)) (e : EventStruct T C) :
    nbPopped t (h ++ [.added e]) = nbPopped t h := by
  simp [nbPopped, sinceReset, popped]

@[simp] lemma nbPopped_statusAdded (t : T) (h : List (Happening T C)) (t' : T) (n : ℚ) :
    nbPopped t (h ++ [.statusAdded t' n]) = nbPopped t h := by
  simp [nbPopped, sinceReset, popped]

@[simp] lemma nbPopped_statusUpdated (t : T) (h : List (Happening T C)) (t' : T) (n : ℚ) :
    nbPopped t (h ++ [.statusUpdated t' n]) = nbPopped t h := by
  simp [nbPopped, sinceReset, popped]

/-- The overall current number is the sum over the registered types, and the current number of each
type is that of its events popped since the last reset. -/
def CurrentNumbersAgree (h : List (Happening T C)) (q : EventQueue T C w) : Prop :=
  q.progressStatus.currentNb = q.progressStatusMap.sum ProgressStatus.currentNb ∧
    ∀ t s, q.progressStatusMap.find? t = some s → s.currentNb = nbPopped t h

/-- No status is added to a type whose current number has moved. -/
def Op.KeepsNumbers (q : EventQueue T C w) : Op T C → Prop
  | .addStatus t _ => ∀ s ∈ q.progressStatusMap.find? t, s.currentNb = 0
  | _ => True

/-! ### The invariant -/

/-- The invariant behind the current numbers: a type without status has had no event popped. -/
structure CurrentInv (h : List (Happening T C)) (q : EventQueue T C w) : Prop where
  pending : PendingRegistered q
  overall : q.progressStatus.currentNb = q.progressStatusMap.sum ProgressStatus.currentNb
  perType : ∀ t, q.share ProgressStatus.currentNb t = nbPopped t h

namespace CurrentInv

variable {q q' : EventQueue T C w} {h : List (Happening T C)}

lemma fresh (key : String) : CurrentInv [] (EventQueue.fresh key : EventQueue T C w) :=
  ⟨fun _ hp => absurd hp List.not_mem_nil, rfl, fun _ => rfl⟩

lemma agree (hI : CurrentInv h q) : CurrentNumbersAgree h q :=
  ⟨hI.overall, fun t s hs => by rw [← hI.perType, share_of_find? hs]⟩

lemma statusAdded (hI : CurrentInv h q) {t : T} (n : ℚ) (hk : Op.KeepsNumbers q (.addStatus t n)) :
    (q.addStatus t n).progressStatus.currentNb
        = (q.addStatus t n).progressStatusMap.sum ProgressStatus.currentNb ∧
      ∀ t', (q.addStatus t n).share ProgressStatus.currentNb t'
        = nbPopped t' (h ++ [.statusAdded t n]) := by
  have hzero : q.share ProgressStatus.currentNb t = 0 := by
    rw [share]
    cases hf : q.progressStatusMap.find? t with
    | none => rfl
    | some s => exact hk s hf
  constructor
  · have hsum := sum_addStatus ProgressStatus.currentNb (q := q) t n
    rw [hzero, currentNb_addedStatus] at hsum
    rw [progressStatus_addStatus]
    exact hI.overall.trans (by omega)
  · intro t'
    rw [nbPopped_statusAdded, ← hI.perType, share, find?_addStatus]
    split_ifs with ht
    · rw [ht, hzero, Option.elim_some, currentNb_addedStatus]
    · rfl

lemma statusUpdated (hI : CurrentInv h q) (t : T) (n : ℚ) :
    (q.updateStatus t n).progressStatus.currentNb
        = (q.updateStatus t n).progressStatusMap.sum ProgressStatus.currentNb ∧
      ∀ t', (q.updateStatus t n).share ProgressStatus.currentNb t'
        = nbPopped t' (h ++ [.statusUpdated t n]) := by
  constructor
  · rw [currentNb_updateStatus, hI.overall, sum_updateStatus_of_eq (fun _ _ => rfl)]
  · intro t'
    rw [nbPopped_statusUpdated, ← hI.perType, share, share, find?_updateStatus]
    cases q.progressStatusMap.find? t' with
    | none => rfl
    | some s => by_cases ht : t' = t <;> simp [ht]

lemma popped (hI : CurrentInv h q) {k : ℤ} {e : EventStruct T C}
    (hfirst : q.eventList.first? = some (k, e)) :
    (q.played k e).progressStatus.currentNb
        = (q.played k e).progressStatusMap.sum ProgressStatus.currentNb ∧
      ∀ t, (q.played k e).share ProgressStatus.currentNb t = nbPopped t (h ++ [.popped e]) := by
  obtain ⟨s, hs⟩ := SortedMap.exists_find? (hI.pending _ (SortedMap.mem_of_first? hfirst))
  constructor
  · have hsum := SortedMap.sum_modify ProgressStatus.currentNb hs ProgressStatus.increment
    have hov := hI.overall
    simp only [played, ProgressStatus.currentNb_increment] at hsum ⊢
    omega
  · intro t
    rw [nbPopped_popped, ← hI.perType, share, share, played, SortedMap.find?_modify]
    by_cases ht : e.eventType = t
    · subst ht
      simp [hs]
    · simp [ht, Ne.symm ht]

lemma cleared (q : EventQueue T C w) (h : List (Happening T C)) :
    q.reset.progressStatus.currentNb = q.reset.progressStatusMap.sum ProgressStatus.currentNb ∧
      ∀ t, q.reset.share ProgressStatus.currentNb t = nbPopped t (h ++ [.cleared]) := by
  constructor
  · rw [reset, SortedMap.sum_mapValues]
    simp [SortedMap.sum]
  · intro t
    rw [nbPopped_cleared, share, reset, SortedMap.find?_mapValues]
    cases q.progressStatusMap.find? t <;> rfl

/-- One happening keeps the current numbers in agreement. -/
theorem step {x : Happening T C} (hI : CurrentInv h q) (hx : Happens q x q')
    (hreg : ∀ op, x.call = some op → op.Registered q)
    (hkeep : ∀ op, x.call = some op → op.KeepsNumbers q) : CurrentInv (h ++ [x]) q' := by
  have hpending := hI.pending.step hx hreg
  cases hx with
  | statusAdded t n =>
      obtain ⟨h₁, h₂⟩ := hI.statusAdded n (hkeep _ rfl)
      exact ⟨hpending, h₁, h₂⟩
  | statusUpdated t n =>
      obtain ⟨h₁, h₂⟩ := hI.statusUpdated t n
      exact ⟨hpending, h₁, h₂⟩
  | added e => exact ⟨hpending, hI.overall, fun t => by rw [nbPopped_added]; exact hI.perType t⟩
  | popped hfirst =>
      obtain ⟨h₁, h₂⟩ := hI.popped hfirst
      exact ⟨hpending, h₁, h₂⟩
  | cleared =>
      obtain ⟨h₁, h₂⟩ := cleared q h
      exact ⟨hpending, h₁, h₂⟩

end CurrentInv

/-! ### Sessions -/

/-- The current numbers agree at the end of a session in which no status is added to a type whose
number has moved. -/
theorem Session.currentNumbersAgree {key : String} {ls : List (Exchange T C w)}
    {q : EventQueue T C w}
    (h : Session (fun q op => op.Registered q ∧ op.KeepsNumbers q) (.fresh key) ls q) :
    CurrentNumbersAgree (history ls) q := by
  refine (h.happens.history (H := CurrentInv) (.fresh key) fun hist q x q' hI hx => ?_).agree
  exact hI.step hx.1 (fun op hop => (hx.2 op hop).1) fun op hop => (hx.2 op hop).2

/-- A status added to a type whose number has moved puts the numbers out of agreement. -/
lemma not_agree_addStatus {q : EventQueue T C w} {h : List (Happening T C)} {t : T} {n : ℚ}
    (hq : CurrentNumbersAgree h q) (hk : ¬ Op.KeepsNumbers q (.addStatus t n)) :
    ¬ CurrentNumbersAgree (h ++ [.statusAdded t n]) (q.addStatus t n) := by
  intro hq'
  simp only [Op.KeepsNumbers, not_forall] at hk
  obtain ⟨s, hs, hne⟩ := hk
  have hnow := hq'.2 t _ (by rw [find?_addStatus, if_pos rfl])
  rw [currentNb_addedStatus, nbPopped_statusAdded, ← hq.2 t s hs] at hnow
  exact hne hnow.symm

/-- **The current numbers along a session.** Events being added only when their type is registered,
the numbers agree in every state reached if and only if no status is ever added to a type whose
current number has moved since the last reset. -/
theorem currentNumbersAgree_iff {key : String} {ls : List (Exchange T C w)} {q : EventQueue T C w}
    (h : Session Op.Registered (.fresh key) ls q) :
    (∀ ls₁ ls₂ q₁, ls = ls₁ ++ ls₂ → Session Op.Registered (.fresh key) ls₁ q₁ →
        CurrentNumbersAgree (history ls₁) q₁) ↔
      ∀ ls₁ l ls₂ q₁, ls = ls₁ ++ l :: ls₂ → Session Op.Registered (.fresh key) ls₁ q₁ →
        l.1.KeepsNumbers q₁ := by
  constructor
  · intro hagree ls₁ l ls₂ q₁ hls h₁
    by_contra hk
    -- the session goes on from `q₁` with the exchange `l`
    rw [hls] at h
    obtain ⟨q₂, h₂, h₃⟩ := Run.append_iff.mp h
    obtain rfl : q₁ = q₂ := h₁.unique (fun _ _ _ _ hs hs' => hs.1.2.2.symm.trans hs'.1.2.2) h₂
    cases h₃ with
    | @cons _ q₃ _ _ _ hs _ =>
        have hprev := hagree ls₁ (l :: ls₂) q₁ hls h₁
        have hnext := hagree (ls₁ ++ [l]) ls₂ q₃ (by rw [hls]; simp) (h₁.snoc hs)
        obtain ⟨op, eff⟩ := l
        obtain ⟨⟨heff, -, hq₃⟩, -⟩ := hs
        cases op with
        | addStatus t n =>
            simp only [Op.exec, EventQueue.effect] at heff
            rw [← hq₃, ← heff, history, List.flatMap_append] at hnext
            exact not_agree_addStatus hprev hk hnext
        | _ => exact hk trivial
  · intro hkeep ls₁ ls₂ q₁ hls h₁
    refine Session.currentNumbersAgree ((h₁.strengthen (P := fun q l => l.1.KeepsNumbers q)
      fun ls₃ l ls₄ q₃ hls' h₃ => ?_).mono fun _ _ _ hs => ⟨hs.1.1, hs.1.2, hs.2⟩)
    exact hkeep ls₃ l (ls₄ ++ ls₂) q₃ (by rw [hls, hls']; simp) h₃

/-- The calls that play one booking request and then add a status to the booking requests again. -/
def rebuiltOps : List (Op SampleType ℕ) :=
  [.addStatus .bkgReq 1, .addEvent (sampleEvent .bkgReq 0 1), .popEvent (sampleEvent .bkgReq 0 0),
    .addStatus .bkgReq 1]

theorem currentNumbersAgree_iff_rebuilt :
    (∀ ls₁ ls₂ q₁, (fresh "EQ01" : EventQueue SampleType ℕ 32).exchanges rebuiltOps = ls₁ ++ ls₂ →
        Session Op.Registered (.fresh "EQ01") ls₁ q₁ → CurrentNumbersAgree (history ls₁) q₁) ↔
      ∀ ls₁ l ls₂ q₁,
        (fresh "EQ01" : EventQueue SampleType ℕ 32).exchanges rebuiltOps = ls₁ ++ l :: ls₂ →
        Session Op.Registered (.fresh "EQ01") ls₁ q₁ → l.1.KeepsNumbers q₁ :=
  currentNumbersAgree_iff (session_exchanges (by decide +kernel))

/-- After the last of these calls the overall number is one and that of the booking requests zero.
-/
theorem currentNumbers_disagree : ∃ ls q,
    Session Op.Registered (fresh "EQ01" : EventQueue SampleType ℕ 32) ls q ∧
      ¬ CurrentNumbersAgree (history ls) q := by
  have hops : (fresh "EQ01" : EventQueue SampleType ℕ 32).Admits Op.Registered rebuiltOps := by
    decide +kernel
  refine ⟨_, _, session_exchanges hops, fun h => ?_⟩
  exact absurd h.1 (by decide +kernel)

end Sevmgr
