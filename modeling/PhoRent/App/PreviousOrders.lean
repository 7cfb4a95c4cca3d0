import PhoRent.App.OrdersPresenter
import PhoRent.Functions.AddItem

/-!
# `getPreviousOrders` and `fillPreviousItem`

An order document has four keys and an element of its `items` three, and they
are read back with the same casts and defaults as everything else. The element
has the ids and the count of the item only: the rest is looked up in the
catalogue, with the defaults of the basket once more.
-/

namespace PhoRent

/-! ## Order documents -/

/-- A field of an order document: a value, or an array of dictionaries. -/
inductive OrderField
  | value (v : FieldValue)
  | array (dictionaries : List (List (String × FieldValue)))
  deriving DecidableEq, Repr

namespace OrderField

def asString? : OrderField → Option String
  | .value v => v.asString?
  | .array _ => none

def asInt? : OrderField → Option ℤ
  | .value v => v.asInt?
  | .array _ => none

def asArray? : OrderField → Option (List (List (String × FieldValue)))
  | .value _ => none
  | .array dictionaries => some dictionaries

end OrderField

def OrderElem.data (e : OrderElem) : List (String × FieldValue) :=
  [("categoryID", .string e.categoryID), ("itemID", .string e.itemID),
    ("count", .int e.count)]

/-- `document.data()` of an order, as `addDocument` has written it. -/
def OrderDoc.data (d : OrderDoc) : List (String × OrderField) :=
  [("items", .array (d.items.map OrderElem.data)),
    ("status", .value (.string d.status)),
    ("startDate", .value (.string d.startDate)),
    ("countOfDay", .value (.int d.countOfDay))]

def Order.ofDocument (data : List (String × OrderField)) : Order where
  orderID := ""
  date := ((data.lookup "startDate").bind OrderField.asString?).getD ""
  countOfDay := ((data.lookup "countOfDay").bind OrderField.asInt?).getD 1
  status := ((data.lookup "status").bind OrderField.asString?).getD ""
  items := (((data.lookup "items").bind OrderField.asArray?).getD []).map
    fun element => .init element ""

/-- The keys written are the keys read. -/
theorem Order.ofDocument_data (d : OrderDoc) :
    Order.ofDocument d.data = ⟨"", d.startDate, d.countOfDay, d.status,
      d.items.map fun e => .init e.data ""⟩ := by
  simp [ofDocument, OrderDoc.data, List.lookup_cons, OrderField.asString?,
    OrderField.asInt?, OrderField.asArray?, FieldValue.asString?,
    FieldValue.asInt?]

/-- Of an element only the ids and the count come back. -/
theorem OrderElem.init_data (e : OrderElem) (itemID : String) :
    BasketItem.init e.data itemID =
      ⟨itemID, "", 1000, "", "", e.count, e.categoryID, e.itemID⟩ := by
  simp [BasketItem.init, data, List.lookup_cons, FieldValue.asString?,
    FieldValue.asInt?]

/-- `users/{uid}/orders`, in the order of the document ids. -/
def Store.ordersOf {V : Type} (s : Store V) (uid : String) :
    List (String × OrderDoc) :=
  (s.orders.docs.filter fun e => (ofLex e.1).1 = uid).map fun e =>
    ((ofLex e.1).2, e.2)

theorem Store.mem_ordersOf {V : Type} {s : Store V} {uid orderID : String}
    {d : OrderDoc} (h : s.orders.get (userKey uid orderID) = some d) :
    (orderID, d) ∈ s.ordersOf uid := by
  refine List.mem_map.mpr ⟨(userKey uid orderID, d), ?_, rfl⟩
  exact List.mem_filter.mpr ⟨Keyed.Coll.mem_docs_of_get h, by simp [userKey]⟩

/-- `getPreviousOrders`: what the listener delivers of the user's orders. -/
def NetworkService.getPreviousOrders {V : Type} (s : Store V)
    (userID : String) : List Order :=
  (s.ordersOf userID).map fun e => .ofDocument e.2.data

/-! ## The catalogue -/

def ItemDoc.data (item : ItemDoc ℤ) : List (String × FieldValue) :=
  ("count", .int item.count) ::
    ((item.name.map fun name => ("name", FieldValue.string name)).toList ++
      item.fields)

/-- `getDocument` of a stock document. The client's `document()` takes its
argument for a path just like `doc()`, and traps where that throws. -/
def Store.getDocument (s : Store ℤ) (categoryID itemID : String) :
    Option (Option (List (String × FieldValue))) := do
  let category ← docPath (.str categoryID)
  let item ← docPath (.str itemID)
  return (s.items ⟨category, item⟩).map ItemDoc.data

/-- What the completion of `fillPreviousItem` gets if the catalogue is read. -/
def NetworkService.previousItem (s : Store ℤ) (categoryID itemID : String) :
    Option PreviousItem :=
  (s.getDocument categoryID itemID).map .ofDocument

theorem NetworkService.fillPreviousItem_reports {s : Store ℤ}
    {categoryID itemID : String} {data : PreviousItem}
    (h : previousItem s categoryID itemID = some data) :
    ∃ document, s.getDocument categoryID itemID = some document ∧
      ((fillPreviousItem categoryID itemID).answer
        (.getItem categoryID itemID) (.success document)).2 =
          [.previousItem data] := by
  obtain ⟨document, hdoc, rfl⟩ := Option.map_eq_some_iff.mp h
  exact ⟨document, hdoc, rfl⟩

end PhoRent
