import Sevmgr.Library.Run
import Sevmgr.Model.EventQueueManager

/-!
Sessions: the calls that the clients of SEvMgr make on one event queue, in any order.

* `Happening`: what becomes of the queue during a call, a status being added or updated, an event
  added or popped, or the queue being reset. `added` and `popped` are the events added and popped in
  a list of them.
* `Op`, `Op.exec`: a call with its arguments, and its `Effect`, what it returns and what it leaves.
* `Step` and `Session`: a call that lets the process live leads from one queue to the next. A failed
  assertion ends the session, an exception does not.
* `history`: the happenings of a session. A call of `run` or of `select` is as many pops as it
  makes.
-/

namespace Sevmgr

variable {T C : Type}

/-! ### Happenings -/

/-- What becomes of a queue during a call. -/
inductive Happening (T C : Type) where
  | statusAdded (iType : T) (n : ℚ)
  | statusUpdated (iType : T) (n : ℚ)
  | added (e : EventStruct T C)
  | popped (e : EventStruct T C)
  | cleared
deriving DecidableEq

/-- The events added in a history, as they were passed to `addEvent`. -/
def added (h : List (Happening T C)) : List (EventStruct T C) :=
  h.filterMap fun | .added e => some e | _ => none

/-- The events popped in a history, first to last. -/
def popped (h : List (Happening T C)) : List (EventStruct T C) :=
  h.filterMap fun | .popped e => some e | _ => none

@[simp] lemma added_append (h h' : List (Happening T C)) : added (h ++ h') = added h ++ added h' :=
  List.filterMap_append

@[simp] lemma popped_append (h h' : List (Happening T C)) :
    popped (h ++ h') = popped h ++ popped h' := List.filterMap_append

@[simp] lemma added_added (e : EventStruct T C) : added [.added e] = [e] := rfl

@[simp] lemma popped_added (e : EventStruct T C) : popped [.added e] = [] := rfl

@[simp] lemma added_popped (e : EventStruct T C) : added [.popped e] = [] := rfl

@[simp] lemma popped_popped (e : EventStruct T C) : popped [.popped e] = [e] := rfl

@[simp] lemma added_map_added (es : List (EventStruct T C)) : added (es.map .added) = es := by
  rw [added, List.filterMap_map]
  exact List.filterMap_some

@[simp] lemma popped_map_added (es : List (EventStruct T C)) : popped (es.map .added) = [] := by
  rw [popped, List.filterMap_map]
  exact List.filterMap_none es

@[simp] lemma popped_map_popped (es : List (EventStruct T C)) : popped (es.map .popped) = es := by
  rw [popped, List.filterMap_map]
  exact List.filterMap_some

/-! ### Calls and their effects -/

/-- The calls on an event queue, with their arguments. -/
inductive Op (T C : Type) where
  | addStatus (iType : T) (n : ℚ)
  | updateStatus (iType : T) (n : ℚ)
  | addEvent (e : EventStruct T C)
  | popEvent (e : EventStruct T C)
  | run (e : EventStruct T C)
  | select (e : EventStruct T C) (iDateTime : DateTime)
  | reset
deriving DecidableEq

/-- What the calls return. -/
inductive Value (T : Type) (w : ℕ) where
  | nothing
  | flag (b : Bool)
  | statuses (s : ProgressStatusSet T w)
deriving DecidableEq

/-- The effect of a call: its outcome, the queue and the event it leaves, and the events it popped.
-/
structure Effect (T C : Type) [Stdair T] (w : ℕ) where
  outcome : Outcome T (Value T w)
  queue : EventQueue T C w
  event : Option (EventStruct T C)
  popped : List (EventStruct T C)
deriving DecidableEq

variable [Stdair T] {w : ℕ}

/-- The effect of a call that works on an event. -/
def Call.effect {α : Type} (f : α → Value T w) (c : Call T C w α) : Effect T C w :=
  ⟨c.outcome.map f, c.queue, some c.event, c.popped⟩

/-- The effect of a call that only rewrites the queue. -/
def EventQueue.effect (q : EventQueue T C w) : Effect T C w := ⟨.returned .nothing, q, none, []⟩

/-- The call `op` on the queue `q`. -/
def Op.exec (q : EventQueue T C w) : Op T C → Effect T C w
  | .addStatus iType n => (q.addStatus iType n).effect
  | .updateStatus iType n => (q.updateStatus iType n).effect
  | .addEvent e => (q.addEvent e).effect .flag
  | .popEvent e => (q.popEvent e).effect .statuses
  | .run e => (q.run e).effect fun _ => .nothing
  | .select e iDateTime => (q.select e iDateTime).effect .flag
  | .reset => q.reset.effect

/-! ### Sessions -/

/-- A call together with its effect. -/
abbrev Exchange (T C : Type) [Stdair T] (w : ℕ) := Op T C × Effect T C w

/-- The call of `l` has the effect of `l`, which leaves the process alive and the queue `q'`. -/
def Step (q : EventQueue T C w) (l : Exchange T C w) (q' : EventQueue T C w) : Prop :=
  l.1.exec q = l.2 ∧ l.2.outcome ≠ .aborted ∧ l.2.queue = q'

/-- The exchanges `ls` lead from `q` to `q'`, every call being admitted by `G` when it is made. -/
abbrev Session (G : EventQueue T C w → Op T C → Prop) :
    EventQueue T C w → List (Exchange T C w) → EventQueue T C w → Prop :=
  Run fun q l q' => Step q l q' ∧ G q l.1

/-- The exchanges of a list of calls made one after the other, up to the first that ends the
process. -/
def EventQueue.exchanges (q : EventQueue T C w) : List (Op T C) → List (Exchange T C w)
  | [] => []
  | op :: ops =>
      (op, op.exec q) :: match (op.exec q).outcome with
        | .aborted => []
        | _ => (op.exec q).queue.exchanges ops

/-- The queue after a list of calls. -/
def EventQueue.after (q : EventQueue T C w) (ops : List (Op T C)) : EventQueue T C w :=
  ops.foldl (fun q op => (op.exec q).queue) q

/-- Every call of the list is admitted by `G` when it is made, and none ends the process. -/
def EventQueue.Admits (G : EventQueue T C w → Op T C → Prop) (q : EventQueue T C w) :
    List (Op T C) → Prop
  | [] => True
  | op :: ops => G q op ∧ (op.exec q).outcome.isAborted = false ∧ (op.exec q).queue.Admits G ops

/-- Every call of the list is admitted by `G` when it is made, up to the first that ends the
process. -/
def EventQueue.Meets (G : EventQueue T C w → Op T C → Prop) (q : EventQueue T C w) :
    List (Op T C) → Prop
  | [] => True
  | op :: ops => G q op ∧ ((op.exec q).outcome ≠ .aborted → (op.exec q).queue.Meets G ops)

/-- A call that lets the process live is followed by the others. -/
lemma exchanges_cons {q : EventQueue T C w} {op : Op T C} (h : (op.exec q).outcome ≠ .aborted)
    (ops : List (Op T C)) :
    q.exchanges (op :: ops) = (op, op.exec q) :: (op.exec q).queue.exchanges ops := by
  rw [EventQueue.exchanges]
  cases ho : (op.exec q).outcome with
  | aborted => exact absurd ho h
  | returned a => rfl
  | raised x => rfl

lemma exchanges_cons_aborted {q : EventQueue T C w} {op : Op T C}
    (h : (op.exec q).outcome = .aborted) (ops : List (Op T C)) :
    q.exchanges (op :: ops) = [(op, op.exec q)] := by
  rw [EventQueue.exchanges, h]

/-- A list of admitted calls makes a session. -/
lemma session_exchanges {G : EventQueue T C w → Op T C → Prop} {q : EventQueue T C w}
    {ops : List (Op T C)} (h : q.Admits G ops) : Session G q (q.exchanges ops) (q.after ops) := by
  induction ops generalizing q with
  | nil => exact .nil q
  | cons op ops ih =>
      obtain ⟨hG, halive, h⟩ := h
      have hne : (op.exec q).outcome ≠ .aborted := fun he => by
        simp [he, Outcome.isAborted] at halive
      rw [exchanges_cons hne]
      exact .cons ⟨⟨rfl, hne, rfl⟩, hG⟩ (ih h)

/-- An event is added only when its type has a progress status. -/
def Op.Registered (q : EventQueue T C w) : Op T C → Prop
  | .addEvent e => e.eventType ∈ q.progressStatusMap.keys
  | _ => True

/-- The calls that add and play events: no status call and no reset. -/
def Op.Playing : Op T C → Prop
  | .addStatus _ _ | .updateStatus _ _ | .reset => False
  | _ => True

section Decidable

variable {G : EventQueue T C w → Op T C → Prop} [∀ q op, Decidable (G q op)]

instance EventQueue.decidableAdmits : ∀ (ops : List (Op T C)) (q : EventQueue T C w),
    Decidable (q.Admits G ops)
  | [], _ => .isTrue trivial
  | _ :: ops, _ => @instDecidableAnd _ _ _ (@instDecidableAnd _ _ _ (decidableAdmits ops _))

instance EventQueue.decidableMeets : ∀ (ops : List (Op T C)) (q : EventQueue T C w),
    Decidable (q.Meets G ops)
  | [], _ => .isTrue trivial
  | _ :: ops, _ => @instDecidableAnd _ _ _ (@instDecidableForall _ _ _ (decidableMeets ops _))

instance (q : EventQueue T C w) : ∀ op, Decidable (Op.Registered q op)
  | .addEvent e => inferInstanceAs (Decidable (e.eventType ∈ q.progressStatusMap.keys))
  | .addStatus _ _ | .updateStatus _ _ | .popEvent _ | .run _ | .select _ _ | .reset =>
      .isTrue trivial

instance : ∀ op, Decidable (Op.Playing (T := T) (C := C) op)
  | .addStatus _ _ | .updateStatus _ _ | .reset => .isFalse id
  | .addEvent _ | .popEvent _ | .run _ | .select _ _ => .isTrue trivial

end Decidable

/-- The queue on which the statuses of a list of types have been added. -/
def EventQueue.prepared (key : String) (regs : List (T × ℚ)) : EventQueue T C w :=
  regs.foldl (fun q r => q.addStatus r.1 r.2) (.fresh key)

/-! ### Histories -/

/-- The happenings of a call. -/
def Exchange.happenings (l : Exchange T C w) : List (Happening T C) :=
  match l.1 with
  | .addStatus iType n => [.statusAdded iType n]
  | .updateStatus iType n => [.statusUpdated iType n]
  | .addEvent e => [.added e]
  | .popEvent _ | .run _ | .select _ _ => l.2.popped.map .popped
  | .reset => [.cleared]

/-- The happenings of a session. -/
def history (ls : List (Exchange T C w)) : List (Happening T C) := ls.flatMap Exchange.happenings

end Sevmgr
