import PhoRent.App.NetworkService
import PhoRent.Functions.Play

/-!
# What a placed order leaves behind

`putOrder` sends the order document and the deletes off at once and nothing
binds them together, so each is carried out or refused on its own. The basket
and the orders are then either both untouched or both changed only if all the
writes have fared alike.
-/

namespace PhoRent

open NetworkService

section Outcome

variable {V : Type} {s : Store V} {userID orderID : String} {order : Order}
  {ok : PutWrite → Bool} {ws : List PutWrite}

/-- Either the order document is there and no line of the order is left, or
there is no order document and all lines are. -/
def AllOrNothing (userID orderID : String) (order : Order) (s : Store V) :
    Prop :=
  (s.orders.get (userKey userID orderID) = some (.ofOrder order) ∧
    ∀ item ∈ order.items, s.line userID item.itemID = none) ∨
  (s.orders.get (userKey userID orderID) = none ∧
    ∀ item ∈ order.items, s.line userID item.itemID ≠ none)

theorem order_answerAll (hws : ws.Perm (putOrder (some userID) order))
    (hfresh : s.orders.get (userKey userID orderID) = none) :
    (answerAll userID orderID ok s ws).orders.get (userKey userID orderID) =
      if ok (.addDocument (.ofOrder order)) = true
      then some (.ofOrder order) else none := by
  rw [orders_answerAll (.ofOrder order)]
  · have hmem : .addDocument (.ofOrder order) ∈ ws :=
      hws.mem_iff.mpr (mem_putOrder.mpr (Or.inl rfl))
    cases ok (.addDocument (.ofOrder order)) <;> simp [hmem, hfresh]
  · intro data hdata
    simpa [mem_putOrder] using hws.mem_iff.mp hdata

theorem line_answerAll_eq_none (hws : ws.Perm (putOrder (some userID) order))
    {item : BasketItem} (hitem : item ∈ order.items)
    (hline : s.line userID item.itemID ≠ none) :
    (answerAll userID orderID ok s ws).line userID item.itemID = none ↔
      ok (.delete item.itemID) = true := by
  have hmem : .delete item.itemID ∈ ws :=
    hws.mem_iff.mpr (mem_putOrder.mpr (Or.inr ⟨item, hitem, rfl⟩))
  rw [line_answerAll]
  cases ok (.delete item.itemID) <;> simp [hmem, hline]

theorem forall_putOrder_iff (hws : ws.Perm (putOrder (some userID) order))
    (b : Bool) : (∀ w ∈ ws, ok w = b) ↔
      ok (.addDocument (.ofOrder order)) = b ∧
        ∀ item ∈ order.items, ok (.delete item.itemID) = b := by
  simp only [hws.mem_iff, mem_putOrder]
  constructor
  · intro h
    exact ⟨h _ (Or.inl rfl), fun item hi => h _ (Or.inr ⟨item, hi, rfl⟩)⟩
  · intro h w hw
    rcases hw with rfl | ⟨item, hi, rfl⟩
    · exact h.1
    · exact h.2 item hi

end Outcome

/-- An order of lines that are in the basket is placed in full or not at all
if and only if all its writes are carried out or all are refused, or it has no
lines. -/
theorem all_or_nothing_iff {V : Type} {s : Store V}
    {userID orderID : String} {order : Order} {ok : PutWrite → Bool}
    {ws : List PutWrite} (hws : ws.Perm (putOrder (some userID) order))
    (hlines : ∀ item ∈ order.items, s.line userID item.itemID ≠ none)
    (hfresh : s.orders.get (userKey userID orderID) = none) :
    AllOrNothing userID orderID order (answerAll userID orderID ok s ws) ↔
      (∀ w ∈ ws, ok w = true) ∨ (∀ w ∈ ws, ok w = false) ∨
        order.items = [] := by
  have hgone : (∀ item ∈ order.items,
      (answerAll userID orderID ok s ws).line userID item.itemID = none) ↔
      ∀ item ∈ order.items, ok (.delete item.itemID) = true :=
    forall₂_congr fun item hi =>
      line_answerAll_eq_none hws hi (hlines item hi)
  have hkept : (∀ item ∈ order.items,
      (answerAll userID orderID ok s ws).line userID item.itemID ≠ none) ↔
      ∀ item ∈ order.items, ok (.delete item.itemID) = false := by
    refine forall₂_congr fun item hi => ?_
    rw [ne_eq, line_answerAll_eq_none hws hi (hlines item hi),
      Bool.not_eq_true]
  rw [forall_putOrder_iff hws, forall_putOrder_iff hws, AllOrNothing, hgone,
    hkept, order_answerAll hws hfresh]
  -- an order without lines has its deletes answered either way
  have hempty : ∀ b, ((∀ item ∈ order.items, ok (.delete item.itemID) = b) ∨
      order.items = []) ↔
      ∀ item ∈ order.items, ok (.delete item.itemID) = b := by
    intro b
    refine or_iff_left_of_imp fun h item hi => ?_
    rw [h] at hi
    cases hi
  cases ok (.addDocument (.ofOrder order)) <;> simp [hempty]

def cameraOrder : Order where
  orderID := ""
  date := "01.06.2020"
  countOfDay := 1
  status := "В корзине"
  items := [(cameraLine 2).decode "l"]

/-- All writes are carried out, the deletes first. -/
theorem all_or_nothing_cameras :
    AllOrNothing "ann" "o" cameraOrder
      (answerAll "ann" "o" (fun _ => true)
        ((cameras 0).setLine "ann" "l" (cameraLine 2))
        (putOrder (some "ann") cameraOrder).reverse) := by
  refine (all_or_nothing_iff (List.reverse_perm _) ?_ rfl).mpr
    (Or.inl fun _ _ => rfl)
  intro item hi
  obtain rfl := List.mem_singleton.mp hi
  simp [Store.line_setLine]

/-- The order document is written and the delete is refused: the order is
there and so is the line. -/
theorem half_placed :
    ¬ AllOrNothing "ann" "o" cameraOrder
      (answerAll "ann" "o" (fun w => w ≠ .delete "l")
        ((cameras (0 : ℤ)).setLine "ann" "l" (cameraLine 2))
        (putOrder (some "ann") cameraOrder)) := by
  rintro (⟨-, h⟩ | ⟨h, -⟩)
  · have hl := h ((cameraLine 2).decode "l") (by simp [cameraOrder])
    rw [line_answerAll] at hl
    simp [Store.line_setLine] at hl
  · rw [orders_answerAll (.ofOrder cameraOrder)] at h
    · simp [putOrder] at h
    · intro data' hd
      simpa [putOrder] using hd

end PhoRent
