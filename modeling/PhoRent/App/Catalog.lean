import PhoRent.App.CategoryPresenter
import PhoRent.App.Completions

/-!
# `NetworkService`: the catalogue

Two listeners, one for the categories and one for the items of a category.
Each is called with a snapshot, or with an error, and makes a list of what is
in the snapshot. A field that is missing, or of another type than the app
wants, is a failed guard: `assertionFailure` does nothing in a release build,
and the `return` behind it leaves the listener, not the loop.
-/

namespace PhoRent

structure QueryDocumentSnapshot where
  documentID : String
  data : List (String × FieldValue)
  deriving DecidableEq, Repr

namespace QueryDocumentSnapshot

variable (document : QueryDocumentSnapshot)

def get (name : String) : Option FieldValue := field name document.data

def string? (name : String) : Option String :=
  (document.get name).bind FieldValue.asString?

def int? (name : String) : Option ℤ :=
  (document.get name).bind FieldValue.asInt?

end QueryDocumentSnapshot

structure Category where
  name : String
  imageName : String
  ID : String
  deriving DecidableEq, Repr

/-- The body of the loop over the categories, its guards in order. -/
def Category.ofDocument (document : QueryDocumentSnapshot) :
    Option Category := do
  let categoryName ← document.string? "categoryName"
  let categoryImage ← document.string? "imageURL"
  return ⟨categoryName, categoryImage, document.documentID⟩

def Item.ofDocument (document : QueryDocumentSnapshot) : Option Item := do
  let itemName ← document.string? "name"
  let itemImage ← document.string? "imageURL"
  let itemCost ← document.int? "cost"
  let itemManufacturer ← document.string? "manufacturer"
  let itemCount ← document.int? "count"
  return ⟨itemName, itemCost, itemManufacturer, itemImage, itemCount,
    document.documentID⟩

/-- What a listener's completion is called with: `Result<[…]?, Error>`. -/
abbrev CatalogResult (α : Type) := Except NSError (Option (List α))

namespace NetworkService

variable {α : Type} (body : QueryDocumentSnapshot → Option α)

/-- The loop of a listener. `none` is a `return` from inside it. -/
def forDocuments (obj : List α) : List QueryDocumentSnapshot → Option (List α)
  | [] => some obj
  | document :: rest =>
      match body document with
      | some element => forDocuments (obj ++ [element]) rest
      | none => none

/-- A listener, and the calls it makes of its completion. -/
def snapshotListener :
    Except NSError (List QueryDocumentSnapshot) → List (CatalogResult α)
  | .error error => [.error error]
  | .ok documents =>
      match forDocuments body [] documents with
      | some obj => [.ok (some obj)]
      | none => []

def getCategories :
    Except NSError (List QueryDocumentSnapshot) →
      List (CatalogResult Category) :=
  snapshotListener Category.ofDocument

/-- The documents are those of one category with a positive `count`. -/
def getItems :
    Except NSError (List QueryDocumentSnapshot) → List (CatalogResult Item) :=
  snapshotListener Item.ofDocument

end NetworkService

end PhoRent
