import Mathlib.Algebra.Order.Group.Multiset
import Mathlib.Logic.Relation
import Mathlib.Tactic.Abel

/-!
# A method that sends requests

A method sends some requests and returns; it may report before it does. Each
request is answered some time later, in an order nobody knows, and its
callback may report again and send further requests. The record of a call is
what is still unanswered, what has been reported, and which answers have come.

Reports and requests both follow from the answers alone, whatever their order:
that is all a proof about a particular method has to start from.
-/

namespace Requests

variable {Op Reply Out : Type*}

/-- What a method sends and reports before it returns, and the callbacks of
its requests: what each sends and reports. -/
structure Method (Op Reply Out : Type*) where
  ops : List Op
  outs : List Out
  answer : Op → Reply → List Op × List Out

structure Progress (Op Reply Out : Type*) where
  inFlight : List Op
  called : List Out
  log : List (Op × Reply)

def Method.start (m : Method Op Reply Out) : Progress Op Reply Out :=
  ⟨m.ops, m.outs, []⟩

/-- One request in flight is answered. -/
inductive Method.Answers (m : Method Op Reply Out) :
    Progress Op Reply Out → Progress Op Reply Out → Prop
  | answer (pre post : List Op) (op : Op) (reply : Reply) (called : List Out)
      (log : List (Op × Reply)) :
      Answers m ⟨pre ++ op :: post, called, log⟩
        ⟨pre ++ post ++ (m.answer op reply).1,
          called ++ (m.answer op reply).2, log ++ [(op, reply)]⟩

abbrev Method.Run (m : Method Op Reply Out) :
    Progress Op Reply Out → Progress Op Reply Out → Prop :=
  Relation.ReflTransGen m.Answers

namespace Method

variable {m : Method Op Reply Out} {p : Progress Op Reply Out}

/-- The reports are those made at once, and those of the callbacks. -/
theorem Run.called (h : m.Run m.start p) :
    p.called = m.outs ++ p.log.flatMap fun e => (m.answer e.1 e.2).2 := by
  induction h with
  | refl => simp [start]
  | tail _ hs ih =>
      obtain ⟨pre, post, op, reply, called, log⟩ := hs
      simp only at ih ⊢
      rw [ih, List.flatMap_append, List.append_assoc, List.flatMap_singleton]

/-- A request is in flight or has been answered, and was sent at once or by a
callback. -/
theorem Run.ops (h : m.Run m.start p) :
    (p.inFlight ++ p.log.map Prod.fst).Perm
      (m.ops ++ p.log.flatMap fun e => (m.answer e.1 e.2).1) := by
  induction h with
  | refl => simp [start]
  | tail _ hs ih =>
      obtain ⟨pre, post, op, reply, called, log⟩ := hs
      simp only [← Multiset.coe_eq_coe, List.map_append, List.map_cons,
        List.map_nil, List.flatMap_append, List.flatMap_singleton,
        ← Multiset.coe_add, ← Multiset.cons_coe,
        ← Multiset.singleton_add] at ih ⊢
      rw [← add_assoc (m.ops : Multiset Op), ← ih]
      abel

theorem Run.flat (h : m.Run m.start p) (hflat : ∀ op r, (m.answer op r).1 = [])
    (hdone : p.inFlight = []) : (p.log.map Prod.fst).Perm m.ops := by
  have hnone : (p.log.flatMap fun e => (m.answer e.1 e.2).1) = [] := by
    simp [hflat]
  have hops := h.ops
  rwa [hdone, hnone, List.nil_append, List.append_nil] at hops

end Method

end Requests
