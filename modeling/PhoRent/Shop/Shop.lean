import Mathlib.Algebra.Order.Group.Int
import Mathlib.Algebra.Order.Group.Multiset
import Mathlib.Logic.Function.Basic
import Mathlib.Logic.Relation

/-!
# The rental shop

What the program is for, without documents, ids, names or requests: there are
so many units of an item on the shelf, a user has so many of them in the
basket, and an order takes what is in the basket for some days from some date.

Users and items are of any types. A count is an integer here as in the code;
that none is ever negative is a fact about runs.
-/

namespace Shop

@[ext]
structure Placed (ι : Type*) where
  date : String
  days : ℤ
  units : ι → ℤ

/-- Orders are told apart by what they are, not by when they came. -/
@[ext]
structure State (υ ι : Type*) where
  shelf : ι → ℤ
  basket : υ → ι → ℤ
  orders : υ → Multiset (Placed ι)

variable {υ ι : Type*} [DecidableEq υ] [DecidableEq ι]

namespace State

variable (s : State υ ι)

/-- `n` units of an item go from the shelf into a basket. -/
def move (u : υ) (i : ι) (n : ℤ) : State υ ι where
  shelf := Function.update s.shelf i (s.shelf i - n)
  basket := Function.update s.basket u
    (Function.update (s.basket u) i (s.basket u i + n))
  orders := s.orders

def putBack (u : υ) (i : ι) : State υ ι := s.move u i (-s.basket u i)

/-- A basket becomes an order. -/
def place (u : υ) (date : String) (days : ℤ) : State υ ι where
  shelf := s.shelf
  basket := Function.update s.basket u fun _ => 0
  orders := Function.update s.orders u
    (s.orders u + {⟨date, days, s.basket u⟩})

end State

/-- What a customer can do. -/
inductive Step : State υ ι → State υ ι → Prop
  | add {s : State υ ι} (u : υ) (i : ι) (n : ℤ) (hn : 1 ≤ n)
      (hle : n ≤ s.shelf i) : Step s (s.move u i n)
  | remove {s : State υ ι} (u : υ) (i : ι) : Step s (s.putBack u i)
  | order {s : State υ ι} (u : υ) (date : String) (days : ℤ) :
      Step s (s.place u date days)

abbrev Run : State υ ι → State υ ι → Prop := Relation.ReflTransGen Step

@[simp] theorem State.move_zero (s : State υ ι) (u : υ) (i : ι) :
    s.move u i 0 = s := by
  simp [State.move]

/-! ## What a customer cannot do -/

/-- Nothing is owed: no count is negative. -/
structure Solvent (s : State υ ι) : Prop where
  shelf : ∀ i, 0 ≤ s.shelf i
  basket : ∀ u i, 0 ≤ s.basket u i
  orders : ∀ u, ∀ o ∈ s.orders u, ∀ i, 0 ≤ o.units i

theorem Solvent.move {s : State υ ι} {u : υ} {i : ι} {n : ℤ} (h : Solvent s)
    (hshelf : n ≤ s.shelf i) (hbasket : 0 ≤ s.basket u i + n) :
    Solvent (s.move u i n) := by
  refine ⟨fun j => ?_, fun v j => ?_, h.orders⟩
  · simp only [State.move, Function.update_apply]
    split
    · exact Int.sub_nonneg_of_le hshelf
    · exact h.shelf j
  · simp only [State.move, Function.update_apply]
    split
    · rw [Function.update_apply]
      split
      · exact hbasket
      · exact h.basket u j
    · exact h.basket v j

omit [DecidableEq ι] in
theorem Solvent.place {s : State υ ι} {u : υ} {date : String} {days : ℤ}
    (h : Solvent s) : Solvent (s.place u date days) := by
  refine ⟨h.shelf, fun v i => ?_, fun v o ho => ?_⟩
  · simp only [State.place, Function.update_apply]
    split
    · exact le_refl 0
    · exact h.basket v i
  · simp only [State.place, Function.update_apply] at ho
    split at ho
    · rcases Multiset.mem_add.mp ho with ho | ho
      · exact h.orders u o ho
      · obtain rfl := Multiset.mem_singleton.mp ho
        exact h.basket u
    · exact h.orders v o ho

/-- A step takes no more than there is, and leaves the orders of before. -/
theorem Solvent.step {s s' : State υ ι} (h : Solvent s) (hs : Step s s') :
    Solvent s' ∧ ∀ u, s.orders u ≤ s'.orders u := by
  cases hs with
  | add u i n hn hle =>
      have hb := h.basket u i
      exact ⟨h.move hle (by omega), fun v => le_refl _⟩
  | remove u i =>
      have hb := h.basket u i
      have hi := h.shelf i
      exact ⟨h.move (by omega) (by omega), fun v => le_refl _⟩
  | order u date days =>
      refine ⟨h.place, fun v => ?_⟩
      simp only [State.place, Function.update_apply]
      split
      · next hv => exact hv ▸ Multiset.le_add_right _ _
      · exact le_refl _

theorem Solvent.run {s s' : State υ ι} (h : Solvent s) (hr : Run s s') :
    Solvent s' ∧ ∀ u, s.orders u ≤ s'.orders u := by
  induction hr with
  | refl => exact ⟨h, fun u => le_refl _⟩
  | tail _ hs ih =>
      obtain ⟨h', hkept⟩ := ih.1.step hs
      exact ⟨h', fun u => (ih.2 u).trans (hkept u)⟩

end Shop
