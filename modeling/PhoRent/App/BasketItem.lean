import PhoRent.Store.Docs

/-!
# Basket items and orders

What the app makes of a document: every field is cast to the type the app
wants, with a default where the field is missing or of another type. The
document id of the item is the field `itemID` in a document and `dbItemID`
here; `itemID` here is the id of the document itself.

Counts, costs and days are `Int` in the app. The model takes them as integers
without a bound.
-/

namespace PhoRent

def FieldValue.asString? : FieldValue → Option String
  | .string s => some s
  | _ => none

def FieldValue.asInt? : FieldValue → Option ℤ
  | .int n => some n
  | _ => none

structure BasketItem where
  itemID : String
  name : String
  cost : ℤ
  imageURL : String
  manufacturer : String
  count : ℤ
  categoryID : String
  dbItemID : String
  deriving DecidableEq, Repr

namespace BasketItem

def init (dictionary : List (String × FieldValue)) (itemID : String) :
    BasketItem where
  itemID := itemID
  name := ((dictionary.lookup "name").bind FieldValue.asString?).getD ""
  cost := ((dictionary.lookup "cost").bind FieldValue.asInt?).getD 1000
  imageURL :=
    ((dictionary.lookup "imageURL").bind FieldValue.asString?).getD ""
  manufacturer :=
    ((dictionary.lookup "manufacturer").bind FieldValue.asString?).getD ""
  count := ((dictionary.lookup "count").bind FieldValue.asInt?).getD 1
  categoryID :=
    ((dictionary.lookup "categoryID").bind FieldValue.asString?).getD ""
  dbItemID := ((dictionary.lookup "itemID").bind FieldValue.asString?).getD ""

end BasketItem

/-- `document.data()` of a basket line. The three fields the functions set are
never among the others. -/
def LineDoc.data (d : LineDoc ℤ) : List (String × FieldValue) :=
  [("count", .int d.count), ("itemID", .string d.itemID),
    ("categoryID", .string d.categoryID)] ++
    (d.name.map fun name => ("name", FieldValue.string name)).toList ++ d.fields

def LineDoc.decode (lineID : String) (d : LineDoc ℤ) : BasketItem :=
  .init d.data lineID

section Decode

variable (lineID : String) (d : LineDoc ℤ)

@[simp] theorem LineDoc.decode_itemID : (d.decode lineID).itemID = lineID :=
  rfl

end Decode

structure Order where
  orderID : String
  date : String
  countOfDay : ℤ
  status : String
  items : List BasketItem
  deriving DecidableEq, Repr

def cameraItem : BasketItem :=
  ⟨"l", "Camera", 500, "", "", 2, "photo", "cam"⟩

end PhoRent
