import Mathlib.Algebra.Order.Ring.Int
import Mathlib.Tactic.Linarith
import PhoRent.Store.Docs

/-!
# Counting units

Where counts are integers, the units of an item are counted in three places:
in stock, in baskets and in orders. This file says how each operation moves
the counts. Which lines are counted is a parameter, a predicate on the user
and the item a line records, so one lemma serves all baskets together and the
basket of one user alike. The last section is about single counts, of any type
and against any bound.
-/

namespace PhoRent

def OrderDoc.units (o : OrderDoc) (ref : ItemRef) : ℤ :=
  (o.items.map fun e => if e.ref = ref then e.count else 0).sum

namespace Store

def stock (s : Store ℤ) (ref : ItemRef) : ℤ :=
  ((s.items ref).map fun item => item.count).getD 0

/-- The units in the basket lines `p` picks out. -/
def held (p : String → ItemRef → Bool) (s : Store ℤ) : ℤ :=
  Keyed.Coll.total
    (fun k d => bif p (ofLex k).1 d.ref then d.count else 0) s.basket

def linesOf (uid : String) (ref : ItemRef) (u : String) (r : ItemRef) : Bool :=
  decide (u = uid) && decide (r = ref)

def ordered (s : Store ℤ) (ref : ItemRef) : ℤ :=
  Keyed.Coll.total (fun _ o => OrderDoc.units o ref) s.orders

/-! ## Stock -/

theorem stock_of_items {s : Store ℤ} {ref : ItemRef} {item : ItemDoc ℤ}
    (h : s.items ref = some item) : s.stock ref = item.count := by
  rw [stock, h]; rfl

theorem stock_updateItem {s s' : Store ℤ} {ref : ItemRef} {n : ℤ}
    (h : s.updateItem ref n = some s') (r : ItemRef) :
    s'.stock r = if r = ref then n else s.stock r := by
  obtain ⟨item, -, rfl⟩ := updateItem_eq_some.mp h
  by_cases hr : r = ref
  · subst hr; simp [stock]
  · simp [stock, hr]

theorem updateItem_basket {V : Type} {s s' : Store V} {ref : ItemRef} {n : V}
    (h : s.updateItem ref n = some s') : s'.basket = s.basket := by
  obtain ⟨item, -, rfl⟩ := updateItem_eq_some.mp h
  rfl

theorem updateItem_orders {V : Type} {s s' : Store V} {ref : ItemRef} {n : V}
    (h : s.updateItem ref n = some s') : s'.orders = s.orders := by
  obtain ⟨item, -, rfl⟩ := updateItem_eq_some.mp h
  rfl

theorem updateItem_line {V : Type} {s s' : Store V} {ref : ItemRef} {n : V}
    (h : s.updateItem ref n = some s') (uid lineID : String) :
    s'.line uid lineID = s.line uid lineID := by
  rw [line, updateItem_basket h, line]

theorem updateItem_linesNamed {V : Type} {s s' : Store V} {ref : ItemRef}
    {n : V} (h : s.updateItem ref n = some s') (uid name : String) :
    s'.linesNamed uid name = s.linesNamed uid name := by
  rw [linesNamed, lines, updateItem_basket h, linesNamed, lines]

/-! ## Baskets -/

section Held

variable {p : String → ItemRef → Bool} {s : Store ℤ} {uid lineID : String}
  {d : LineDoc ℤ}

theorem held_setLine_new (h : s.line uid lineID = none) :
    (s.setLine uid lineID d).held p =
      s.held p + bif p uid d.ref then d.count else 0 := by
  rw [held, setLine, Keyed.Coll.total_put_new _ _ h]
  rfl

theorem held_setLine_count (h : s.line uid lineID = some d) (n : ℤ) :
    (s.setLine uid lineID { d with count := n }).held p =
      s.held p + bif p uid d.ref then n - d.count else 0 := by
  have ht : (s.setLine uid lineID { d with count := n }).held p +
        (bif p uid d.ref then d.count else 0) =
      s.held p + bif p uid d.ref then n else 0 :=
    Keyed.Coll.total_put_old
      (fun (k : UserKey) (d : LineDoc ℤ) => bif p (ofLex k).1 d.ref then d.count else 0)
      { d with count := n } h
  cases hp : p uid d.ref <;> simp only [hp, cond_true, cond_false] at ht ⊢ <;>
    linarith

theorem held_deleteLine (h : s.line uid lineID = some d) :
    (s.deleteLine uid lineID).held p =
      s.held p - bif p uid d.ref then d.count else 0 := by
  have ht : (s.deleteLine uid lineID).held p +
        (bif p uid d.ref then d.count else 0) = s.held p :=
    Keyed.Coll.total_erase
      (fun (k : UserKey) (d : LineDoc ℤ) => bif p (ofLex k).1 d.ref then d.count else 0) h
  linarith

theorem held_eq_single (hl : s.line uid lineID = some d)
    (hzero : ∀ u l d', s.line u l = some d' → p u d'.ref = true →
      u = uid ∧ l = lineID) :
    s.held p = bif p uid d.ref then d.count else 0 := by
  refine Keyed.Coll.total_eq_single _ hl fun k d' hd' hne => ?_
  cases hp : p (ofLex k).1 d'.ref with
  | false => rfl
  | true =>
      obtain ⟨hu, hl'⟩ := hzero (ofLex k).1 (ofLex k).2 d' hd' hp
      exact absurd (ofLex_inj.mp (Prod.ext hu hl')) hne

theorem held_updateItem {s' : Store ℤ} {ref : ItemRef} {n : ℤ}
    (h : s.updateItem ref n = some s') : s'.held p = s.held p := by
  rw [held, updateItem_basket h, held]

end Held

/-! ## One line -/

/-- The user's only line among those `p` picks out has `n` units, and without
one `n` is zero. -/
inductive OneOf (s : Store ℤ) (uid : String) (p : LineDoc ℤ → Prop) (n : ℤ) :
    Prop
  | absent (h : ∀ l d, s.line uid l = some d → ¬ p d) (hn : n = 0)
  | line (l : String) (d : LineDoc ℤ) (hl : s.line uid l = some d) (hp : p d)
      (hone : ∀ l' d', s.line uid l' = some d' → p d' → l' = l)
      (hn : d.count = n)

section OneOf

variable {s s' : Store ℤ} {uid l : String} {p : LineDoc ℤ → Prop} {n m : ℤ}
  {d : LineDoc ℤ}

theorem OneOf.eq_line (h : s.OneOf uid p n) {l' : String} {d' : LineDoc ℤ}
    (hl : s.line uid l = some d) (hp : p d) (hl' : s.line uid l' = some d')
    (hp' : p d') : l = l' := by
  cases h with
  | absent h => exact absurd hp (h l d hl)
  | line l₀ d₀ _ _ hone _ => rw [hone l d hl hp, hone l' d' hl' hp']

theorem OneOf.congr (h : s.OneOf uid p n)
    (hl : ∀ l, s'.line uid l = s.line uid l) : s'.OneOf uid p n := by
  cases h with
  | absent h hn => exact .absent (fun l d hd => h l d (hl l ▸ hd)) hn
  | line l d hd hp hone hn =>
      exact .line l d (hl l ▸ hd) hp
        (fun l' d' hd' => hone l' d' (hl l' ▸ hd')) hn

theorem OneOf.setLine (h : s.OneOf uid p n)
    (hnone : ∀ l d, s.line uid l = some d → ¬ p d) (hp : p d) :
    (s.setLine uid l d).OneOf uid p (n + d.count) := by
  have hn : n = 0 := by
    cases h with
    | absent _ hn => exact hn
    | line l₀ d₀ hl₀ hp₀ => exact absurd hp₀ (hnone l₀ d₀ hl₀)
  refine .line l d (by simp [line_setLine]) hp ?_ (by omega)
  intro l' d' hl' hp'
  rcases line_of_setLine hl' with ⟨-, hl, -⟩ | hl'
  · exact hl
  · exact absurd hp' (hnone l' d' hl')

theorem OneOf.updateLine (h : s.OneOf uid p n) (hl : s.line uid l = some d)
    (hp : p d) (hp' : p { d with count := d.count + m }) :
    (s.setLine uid l { d with count := d.count + m }).OneOf uid p
      (n + m) := by
  cases h with
  | absent hnone => exact absurd hp (hnone l d hl)
  | line l₀ d₀ hl₀ _ hone hn =>
      obtain rfl : l = l₀ := hone l d hl hp
      obtain rfl : d₀ = d := Option.some.inj (hl₀.symm.trans hl)
      refine .line l _ (by simp [line_setLine]) hp' ?_ (by simp [hn])
      intro l' d' hl' hp''
      rcases line_of_setLine hl' with ⟨-, hl, -⟩ | hl'
      · exact hl
      · exact hone l' d' hl' hp''

end OneOf

/-! ## Orders -/

theorem ordered_setOrder_new {s : Store ℤ} {uid orderID : String}
    {o : OrderDoc} (h : s.orders.get (userKey uid orderID) = none)
    (ref : ItemRef) :
    (s.setOrder uid orderID o).ordered ref = s.ordered ref + o.units ref := by
  rw [ordered, setOrder, Keyed.Coll.total_put_new _ _ h, ordered]

/-! ## Single counts -/

section Counts

variable {V : Type} {P Q : V → Prop} {s s' : Store V} {v : V}

structure Counts (P Q : V → Prop) (s : Store V) : Prop where
  stock : ∀ ref item, s.items ref = some item → P item.count
  line : ∀ uid l d, s.line uid l = some d → Q d.count

theorem Counts.updateItem {ref : ItemRef} (h : s.Counts P Q) (hv : P v)
    (hu : s.updateItem ref v = some s') : s'.Counts P Q := by
  refine ⟨fun r item hi => ?_, fun uid l d hd => ?_⟩
  · rw [updateItem_items hu] at hi
    split at hi
    · obtain ⟨old, -, rfl⟩ := Option.map_eq_some_iff.mp hi
      exact hv
    · exact h.stock r item hi
  · rw [updateItem_line hu] at hd
    exact h.line uid l d hd

theorem Counts.setLine {uid l : String} {d : LineDoc V} (h : s.Counts P Q)
    (hd : Q d.count) : (s.setLine uid l d).Counts P Q := by
  refine ⟨h.stock, fun u l' d' hd' => ?_⟩
  rcases line_of_setLine hd' with ⟨-, -, rfl⟩ | hd'
  · exact hd
  · exact h.line u l' d' hd'

theorem Counts.deleteLine (h : s.Counts P Q) (uid l : String) :
    (s.deleteLine uid l).Counts P Q :=
  ⟨h.stock, fun u l' d' hd' => h.line u l' d' (line_of_deleteLine hd')⟩

end Counts

end Store

end PhoRent
