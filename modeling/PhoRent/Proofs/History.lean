import PhoRent.Proofs.World

/-!
# What the history shows

An order document keeps the ids and the counts of its lines, and the history
asks the catalogue for the rest. There are defaults for what it does not find:
a cost of 1000, and empty texts. A user would take them for data.

None of it is ever seen of an order the app has written. Its lines were lines
of a basket, so their ids lead to documents, and these are still there and say
what they said when the order was made.
-/

namespace PhoRent

open Machine NetworkService

open BasketScreen (plainDates)

section Documents

variable {s : Store ℤ} {Date : Type} {formatter : DateFormatter Date}

/-- The catalogue has an answer for an element whose document exists. -/
theorem OrderElem.exists_previousItem {e : OrderElem}
    (h : ∃ ref, refOf e.categoryID e.itemID = some ref ∧
      (s.items ref).isSome) :
    ∃ data, previousItem s e.categoryID e.itemID = some data := by
  obtain ⟨ref, href, -⟩ := h
  rw [previousItem, Store.getDocument_eq, href]
  exact ⟨_, rfl⟩

theorem OrderElem.describes_filledFrom {e : OrderElem} (hn : 1 ≤ e.count)
    (h : ∃ ref, refOf e.categoryID e.itemID = some ref ∧
      (s.items ref).isSome) :
    s.Describes ((BasketItem.init e.data "").filledFrom s) := by
  obtain ⟨data, hdata⟩ := e.exists_previousItem h
  rw [OrderElem.init_data]
  rw [BasketItem.filledFrom_of_some hdata]
  refine ⟨h, ?_, hn⟩
  rw [BasketItem.filledFrom_of_some hdata]
  rfl

/-- What the history shows of an order. -/
structure Order.Told (formatter : DateFormatter Date) (s : Store ℤ)
    (order : Order) : Prop where
  nonempty : order.items ≠ []
  items : ∀ item ∈ order.items, s.Describes item
  days : 1 ≤ order.countOfDay ∧ order.countOfDay ≤ 30
  date : order.date ∈ Set.range formatter.string
  status : order.status = "В работе"

theorem OrderDoc.Proper.told {d : OrderDoc} (h : d.Proper formatter s) :
    ((Order.ofDocument d.data).filledFrom s).Told formatter s := by
  rw [Order.ofDocument_data, Order.filledFrom, List.map_map]
  refine ⟨fun hnil => h.nonempty (List.map_eq_nil_iff.mp hnil),
    fun item hitem => ?_, h.days, h.date, h.status⟩
  obtain ⟨e, he, rfl⟩ := List.mem_map.mp hitem
  obtain ⟨hn, hfound⟩ := h.items e he
  exact OrderElem.describes_filledFrom hn hfound

theorem BasketItem.ofItem_filledFrom (item : BasketItem) :
    OrderElem.ofItem (item.filledFrom s) = OrderElem.ofItem item := by
  rw [filledFrom]
  split <;> rfl

theorem OrdersScreen.lineAt_map_filledFrom (orders : List Order) (i j : ℕ) :
    lineAt (orders.map (Order.filledFrom s)) i j =
      (lineAt orders i j).map (BasketItem.filledFrom s) := by
  rw [lineAt, lineAt, List.getElem?_map, Option.bind_map, Option.map_bind]
  refine congrArg _ (funext fun order => ?_)
  exact List.getElem?_map ..

/-- Where every line of a document can be looked up, so can what is asked for
while they come in. -/
theorem OrdersScreen.Underway.exists_previousItem {uid : String}
    (hproper : ∀ e ∈ s.ordersOf uid, e.2.Proper formatter s)
    {screen : OrdersScreen}
    (h : screen.Underway s (getPreviousOrders s uid)) {r : FillRequest}
    (hr : r ∈ screen.inFlight) :
    ∃ item data, lineAt screen.orders r.indexOrder r.indexItem = some item ∧
      previousItem s r.categoryID r.itemID = some data := by
  obtain ⟨item, hline, hcategory, hitem⟩ := h.fitting r hr
  have hline' : lineAt screen.orders r.indexOrder r.indexItem = some item :=
    hline
  have hfilled := congrArg
    (fun orders => lineAt orders r.indexOrder r.indexItem) h.goal
  simp only [lineAt_map_filledFrom, hline', Option.map_some] at hfilled
  obtain ⟨item₀, hline₀, hsame⟩ := Option.map_eq_some_iff.mp hfilled.symm
  obtain ⟨order₀, horder₀, hitem₀⟩ := Option.bind_eq_some_iff.mp hline₀
  obtain ⟨e, he, rfl⟩ := List.mem_map.mp (List.mem_of_getElem? horder₀)
  rw [Order.ofDocument_data] at hitem₀
  obtain ⟨elem, helem, rfl⟩ := List.mem_map.mp (List.mem_of_getElem? hitem₀)
  obtain ⟨data, hdata⟩ :=
    elem.exists_previousItem ((hproper e he).items elem helem).2
  refine ⟨item, data, hline, ?_⟩
  have hids := congrArg OrderElem.ofItem hsame
  rw [BasketItem.ofItem_filledFrom, BasketItem.ofItem_filledFrom,
    OrderElem.init_data] at hids
  obtain ⟨hcategory', hitem', -⟩ := OrderElem.mk.inj hids
  rw [← hcategory, ← hitem, ← hcategory', ← hitem']
  exact hdata

end Documents

namespace World

variable {Date : Type} {formatter : DateFormatter Date} {s₀ : Store ℤ}
  {w : World}

end World

end PhoRent
