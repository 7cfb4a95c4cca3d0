import Mathlib.Data.List.Basic

/-!
# A value that is written somewhere else, and shown here

A write is sent, carried out or refused over there, and acknowledged here some
time later. What is shown here changes with the acknowledgement and not before.
In between, the writes are in a queue: those that have been answered, then those
that have not.

If answers and acknowledgements come in the order the writes were sent, then
what is stored is what is shown once all that has been answered is acknowledged.
So the two are the same whenever the queue is empty.
-/

namespace WriteQueue

variable {α : Type*}

/-- A write, and whether it was carried out, once it has been answered. -/
structure Write (α : Type*) where
  value : α
  done : Option Bool

/-- What an acknowledgement makes of the value shown. -/
def Write.acknowledge (w : Write α) (shown : α) : α :=
  if w.done = some true then w.value else shown

/-- What is shown in the end, if nothing more is answered. -/
def settle (shown : α) : List (Write α) → α
  | [] => shown
  | w :: queue => settle (w.acknowledge shown) queue

/-- No write is answered before one that was sent earlier. -/
def InOrder (queue : List (Write α)) : Prop :=
  queue.Pairwise fun w w' => w.done = none → w'.done = none

variable {shown : α} {queue : List (Write α)} {v : α} {k : ℕ} {ok : Bool}

theorem settle_unanswered (h : ∀ w ∈ queue, w.done = none) :
    settle shown queue = shown := by
  induction queue with
  | nil => rfl
  | cons w queue ih =>
      obtain ⟨hw, hqueue⟩ := List.forall_mem_cons.mp h
      rw [settle, Write.acknowledge, hw, if_neg nofun, ih hqueue]

theorem settle_send (shown : α) (queue : List (Write α)) (v : α) :
    settle shown (queue ++ [⟨v, none⟩]) = settle shown queue := by
  induction queue generalizing shown with
  | nil => rfl
  | cons w queue ih => exact ih _

theorem InOrder.send (h : InOrder queue) (v : α) :
    InOrder (queue ++ [⟨v, none⟩]) := by
  refine List.pairwise_append.mpr ⟨h, List.pairwise_singleton _ _, ?_⟩
  intro w _ w' hw' _
  rw [List.mem_singleton.mp hw']

/-- The answer to a write with no answered ones behind it decides what is shown
in the end. -/
theorem settle_answer (h : InOrder queue) (hk : queue[k]? = some ⟨v, none⟩) :
    settle shown (queue.set k ⟨v, some ok⟩) =
      if ok then v else settle shown queue := by
  induction queue generalizing shown k with
  | nil => cases hk
  | cons w queue ih =>
      obtain ⟨hw, hqueue⟩ := List.pairwise_cons.mp h
      cases k with
      | zero =>
          obtain rfl := Option.some.inj hk
          have hrest : ∀ w' ∈ queue, w'.done = none :=
            fun w' hw' => hw w' hw' rfl
          rw [List.set_cons_zero, settle, settle, settle_unanswered hrest,
            settle_unanswered hrest]
          cases ok <;> rfl
      | succ k => exact ih hqueue hk

theorem InOrder.answer (h : InOrder queue)
    (hbefore : ∀ w ∈ queue.take k, w.done.isSome = true) :
    InOrder (queue.set k ⟨v, some ok⟩) := by
  induction queue generalizing k with
  | nil => exact h
  | cons w queue ih =>
      obtain ⟨hw, hqueue⟩ := List.pairwise_cons.mp h
      cases k with
      | zero => exact List.pairwise_cons.mpr ⟨nofun, hqueue⟩
      | succ k =>
          obtain ⟨hsome, hrest⟩ := List.forall_mem_cons.mp hbefore
          refine List.pairwise_cons.mpr ⟨fun _ _ hnone => ?_, ih hqueue hrest⟩
          rw [hnone] at hsome
          cases hsome

/-- What is stored and what is shown, with the queue between them. -/
structure Settled (stored shown : α) (queue : List (Write α)) : Prop where
  inOrder : InOrder queue
  stored : stored = settle shown queue

variable {stored : α}

theorem settled_nil : Settled stored shown [] ↔ stored = shown :=
  ⟨Settled.stored, fun h => ⟨List.Pairwise.nil, h⟩⟩

theorem Settled.send (h : Settled stored shown queue) (v : α) :
    Settled stored shown (queue ++ [⟨v, none⟩]) where
  inOrder := h.inOrder.send v
  stored := h.stored.trans (settle_send shown queue v).symm

theorem Settled.answer (h : Settled stored shown queue) (ok : Bool)
    (hk : queue[k]? = some ⟨v, none⟩)
    (hbefore : ∀ w ∈ queue.take k, w.done.isSome = true) :
    Settled (if ok then v else stored) shown
      (queue.set k ⟨v, some ok⟩) where
  inOrder := h.inOrder.answer hbefore
  stored := by rw [settle_answer h.inOrder hk, ← h.stored]

theorem Settled.acknowledge {w : Write α}
    (h : Settled stored shown (w :: queue)) :
    Settled stored (w.acknowledge shown) queue where
  inOrder := (List.pairwise_cons.mp h.inOrder).2
  stored := h.stored

end WriteQueue
