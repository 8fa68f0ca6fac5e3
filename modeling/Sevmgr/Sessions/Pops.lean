import Sevmgr.Sessions.Clock

/-!
Runs of pops.

* `Pops`: some events are popped, which leaves those after them. The events determine the queue that
  is left.
* `Op.Takes`: the calls that take events out of the queue. A session of such calls is a run of pops,
  whatever their outcomes (`Session.pops`).
* `Pops.exists_extension`: of two runs from one queue, the longer goes on from the end of the
  shorter.
-/

namespace Sevmgr

open EventQueue

variable {T C : Type} [Stdair T] {w : ℕ} {q q' q'' : EventQueue T C w}
  {es es' : List (EventStruct T C)}

/-- The events `es` are popped from `q`, which makes it `q'`. -/
abbrev Pops (q : EventQueue T C w) (es : List (EventStruct T C)) (q' : EventQueue T C w) : Prop :=
  Run Happens q (es.map .popped) q'

/-- The happenings of a call that only pops. -/
lemma Pops.of_happensIf {G : EventQueue T C w → Op T C → Prop}
    (h : Run (HappensIf G) q (es.map .popped) q') : Pops q es q' :=
  h.mono fun _ _ _ hx => hx.1

/-- Pops are admitted whatever `G`. -/
lemma Pops.happensIf {G : EventQueue T C w → Op T C → Prop} (h : Pops q es q') :
    Run (HappensIf G) q (es.map .popped) q' := by
  induction es generalizing q with
  | nil =>
      cases h
      exact .nil _
  | cons e es ih =>
      cases h with
      | cons hx h =>
          cases hx with
          | popped hfirst => exact .cons (.popped hfirst) (ih h)

lemma Pops.values (h : Pops q es q') : q.eventList.values = es ++ q'.eventList.values := by
  obtain ⟨ps, hps, hes⟩ := (removed_of_pops (G := fun _ _ => True) h.happensIf).events
  rw [SortedMap.values, hps, List.map_append, hes]
  rfl

lemma Pops.length_add_size (h : Pops q es q') :
    es.length + q'.eventList.size = q.eventList.size := by
  rw [← SortedMap.length_values, ← SortedMap.length_values, h.values, List.length_append]

lemma Pops.unique (h : Pops q es q') (h' : Pops q es q'') : q' = q'' :=
  Run.unique (fun _ _ _ _ hx hx' => hx.unique hx') h h'

/-- **Runs of pops form a chain**: the longer goes on from the end of the shorter. -/
theorem Pops.exists_extension (h : Pops q es q') (h' : Pops q es' q'')
    (hle : es.length ≤ es'.length) : ∃ rest, es' = es ++ rest ∧ Pops q' rest q'' := by
  have hprefix : es <+: es' := List.prefix_of_prefix_length_le
    ⟨_, h.values.symm⟩ ⟨_, h'.values.symm⟩ hle
  obtain ⟨rest, rfl⟩ := hprefix
  rw [Pops, List.map_append] at h'
  obtain ⟨q₁, h₁, hrest⟩ := Run.append_iff.mp h'
  obtain rfl : q' = q₁ := h.unique h₁
  exact ⟨rest, rfl, hrest⟩

/-! ### Calls that take events -/

/-- The call takes events out of the queue, or leaves it as it is. -/
def Op.Takes (_ : EventQueue T C w) : Op T C → Prop
  | .popEvent _ | .run _ | .select _ _ => True
  | _ => False

instance (q : EventQueue T C w) : ∀ op, Decidable (Op.Takes q op)
  | .popEvent _ | .run _ | .select _ _ => .isTrue trivial
  | .addStatus _ _ | .updateStatus _ _ | .addEvent _ | .reset => .isFalse id

/-- A session of such calls is a run of pops. -/
lemma Session.pops {ls : List (Exchange T C w)} (hs : Session Op.Takes q ls q') :
    Pops q (popped (history ls)) q' := by
  refine hs.happens.history (H := fun h q₁ => Pops q (popped h) q₁) (.nil q)
    fun h q₁ x q₂ hq hx => ?_
  obtain ⟨hx, hcall⟩ := hx
  cases hx with
  | statusAdded t n => exact (hcall _ rfl).elim
  | statusUpdated t n => exact (hcall _ rfl).elim
  | added e => exact (hcall _ rfl).elim
  | popped hfirst =>
      rw [Pops, popped_append, List.map_append]
      exact hq.snoc (.popped hfirst)
  | cleared => exact (hcall _ rfl).elim

end Sevmgr
