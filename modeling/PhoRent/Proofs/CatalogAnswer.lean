import Mathlib.Data.List.Forall2
import PhoRent.App.Catalog

/-!
# A snapshot with a document that cannot be read is not answered

The loop of a listener either reads every document or leaves the listener:
`forDocuments` is a list as long as the snapshot, or nothing. So the
completion is called once where every document has its fields, with an element
for each in the order of the snapshot, and otherwise it is not called, however
good the other documents are.

What a document has to hold is said without the loop, by `Shows`, which relates
it to the element it stands for; the body of the loop decides that relation.
-/

namespace PhoRent

section Spec

variable {α : Type} (Shows : QueryDocumentSnapshot → α → Prop)

/-- An element for each document that stands for one, in order, and no
others. -/
inductive Lists : List QueryDocumentSnapshot → List α → Prop
  | nil : Lists [] []
  | shown {document : QueryDocumentSnapshot} {element : α}
      {documents : List QueryDocumentSnapshot} {list : List α}
      (h : Shows document element) (rest : Lists documents list) :
      Lists (document :: documents) (element :: list)
  | skipped {document : QueryDocumentSnapshot}
      {documents : List QueryDocumentSnapshot} {list : List α}
      (h : ¬ ∃ element, Shows document element) (rest : Lists documents list) :
      Lists (document :: documents) list

/-- A snapshot is answered by one call, and a successful one lists it. -/
def Answered (documents : List QueryDocumentSnapshot)
    (answers : List (CatalogResult α)) : Prop :=
  answers.length = 1 ∧ ∀ list, .ok list ∈ answers →
    ∃ obj, list = some obj ∧ Lists Shows documents obj

theorem Lists.of_forall₂ {Shows : QueryDocumentSnapshot → α → Prop}
    {documents : List QueryDocumentSnapshot} {list : List α}
    (h : List.Forall₂ Shows documents list) : Lists Shows documents list := by
  induction h with
  | nil => exact .nil
  | cons hd _ ih => exact .shown hd ih

end Spec

def Category.Shows (document : QueryDocumentSnapshot) (category : Category) :
    Prop :=
  document.get "categoryName" = some (.string category.name) ∧
    document.get "imageURL" = some (.string category.imageName) ∧
    document.documentID = category.ID

def Item.Shows (document : QueryDocumentSnapshot) (item : Item) : Prop :=
  document.get "name" = some (.string item.name) ∧
    document.get "cost" = some (.int item.cost) ∧
    document.get "manufacturer" = some (.string item.manufacturer) ∧
    document.get "imageURL" = some (.string item.imageURL) ∧
    document.get "count" = some (.int item.count) ∧
    document.documentID = item.ID

section Body

theorem FieldValue.asString?_eq_some {v : FieldValue} {s : String} :
    v.asString? = some s ↔ v = .string s := by
  cases v <;> simp [FieldValue.asString?]

theorem FieldValue.asInt?_eq_some {v : FieldValue} {n : ℤ} :
    v.asInt? = some n ↔ v = .int n := by
  cases v <;> simp [FieldValue.asInt?]

variable {document : QueryDocumentSnapshot} {name : String}

theorem QueryDocumentSnapshot.string?_eq_some {s : String} :
    document.string? name = some s ↔
      document.get name = some (.string s) := by
  rw [QueryDocumentSnapshot.string?, Option.bind_eq_some_iff]
  simp only [FieldValue.asString?_eq_some, exists_eq_right]

theorem QueryDocumentSnapshot.int?_eq_some {n : ℤ} :
    document.int? name = some n ↔ document.get name = some (.int n) := by
  rw [QueryDocumentSnapshot.int?, Option.bind_eq_some_iff]
  simp only [FieldValue.asInt?_eq_some, exists_eq_right]

/-- The guards of the loop over the categories let a document through exactly
when it shows a category. -/
theorem Category.ofDocument_eq_some {category : Category} :
    Category.ofDocument document = some category ↔
      Category.Shows document category := by
  obtain ⟨name, imageName, ID⟩ := category
  simp only [Category.ofDocument, Category.Shows, Option.bind_eq_bind,
    Option.bind_eq_some_iff, Option.pure_def, Option.some.injEq,
    Category.mk.injEq, QueryDocumentSnapshot.string?_eq_some]
  constructor
  · rintro ⟨_, hn, _, hi, rfl, rfl, rfl⟩
    exact ⟨hn, hi, rfl⟩
  · rintro ⟨hn, hi, rfl⟩
    exact ⟨_, hn, _, hi, rfl, rfl, rfl⟩

theorem Item.ofDocument_eq_some {item : Item} :
    Item.ofDocument document = some item ↔ Item.Shows document item := by
  obtain ⟨name, cost, manufacturer, imageURL, count, ID⟩ := item
  simp only [Item.ofDocument, Item.Shows, Option.bind_eq_bind,
    Option.bind_eq_some_iff, Option.pure_def, Option.some.injEq,
    Item.mk.injEq, QueryDocumentSnapshot.string?_eq_some,
    QueryDocumentSnapshot.int?_eq_some]
  constructor
  · rintro ⟨_, hn, _, hi, _, hc, _, hm, _, hk, rfl, rfl, rfl, rfl, rfl, rfl⟩
    exact ⟨hn, hc, hm, hi, hk, rfl⟩
  · rintro ⟨hn, hc, hm, hi, hk, rfl⟩
    exact ⟨_, hn, _, hi, _, hc, _, hm, _, hk, rfl, rfl, rfl, rfl, rfl, rfl⟩

end Body

namespace NetworkService

section Loop

variable {α : Type} {body : QueryDocumentSnapshot → Option α}
  {Shows : QueryDocumentSnapshot → α → Prop}

/-- The loop gets to its end with an element for each document behind those it
began with. -/
theorem forDocuments_eq_some {documents : List QueryDocumentSnapshot}
    {obj list : List α} (h : forDocuments body obj documents = some list) :
    ∃ read, list = obj ++ read ∧
      List.Forall₂ (fun document element => body document = some element)
        documents read := by
  induction documents generalizing obj with
  | nil => exact ⟨[], by simpa [forDocuments, eq_comm] using h, .nil⟩
  | cons document rest ih =>
      rw [forDocuments] at h
      split at h
      · next element he =>
          obtain ⟨read, rfl, hread⟩ := ih h
          exact ⟨element :: read, List.append_assoc obj [element] read,
            .cons he hread⟩
      · cases h

theorem isSome_forDocuments {documents : List QueryDocumentSnapshot}
    (obj : List α) :
    (forDocuments body obj documents).isSome ↔
      ∀ document ∈ documents, (body document).isSome := by
  induction documents generalizing obj with
  | nil => simp [forDocuments]
  | cons document rest ih =>
      rw [forDocuments, List.forall_mem_cons]
      cases body document with
      | none => simp
      | some element => simpa using ih (obj ++ [element])

variable (hbody : ∀ document element,
  body document = some element ↔ Shows document element)

include hbody

/-- A listener answers a snapshot exactly when every document of it shows an
element. -/
theorem snapshotListener_answered_iff
    (documents : List QueryDocumentSnapshot) :
    Answered Shows documents (snapshotListener body (.ok documents)) ↔
      ∀ document ∈ documents, ∃ element, Shows document element := by
  have hall : (∀ document ∈ documents, (body document).isSome) ↔
      ∀ document ∈ documents, ∃ element, Shows document element := by
    simp only [Option.isSome_iff_exists, hbody]
  rw [← hall, ← isSome_forDocuments ([] : List α)]
  simp only [Answered, snapshotListener]
  cases hloop : forDocuments body [] documents with
  | none => simp
  | some obj =>
      obtain ⟨read, rfl, hread⟩ := forDocuments_eq_some hloop
      refine iff_of_true ⟨rfl, fun list hlist => ?_⟩ rfl
      obtain rfl := Except.ok.inj (List.mem_singleton.mp hlist)
      exact ⟨obj, rfl, .of_forall₂ (hread.imp fun _ _ => (hbody _ _).mp)⟩

end Loop

/-- A snapshot of the categories, and one of the items, is answered exactly
when every document in it has its fields, each of its type. -/
theorem snapshots_answered_iff (documents : List QueryDocumentSnapshot) :
    (Answered Category.Shows documents (getCategories (.ok documents)) ↔
      ∀ document ∈ documents, ∃ category, Category.Shows document category) ∧
    (Answered Item.Shows documents (getItems (.ok documents)) ↔
      ∀ document ∈ documents, ∃ item, Item.Shows document item) :=
  ⟨snapshotListener_answered_iff
      (fun _ _ => Category.ofDocument_eq_some) documents,
    snapshotListener_answered_iff
      (fun _ _ => Item.ofDocument_eq_some) documents⟩

def pricedByText : List QueryDocumentSnapshot :=
  [⟨"camera", [("name", .string "EOS R"), ("imageURL", .string "eos.png"),
      ("cost", .int 1500), ("manufacturer", .string "Canon"),
      ("count", .int 4)]⟩,
    ⟨"lamp", [("name", .string "Flash"), ("imageURL", .string "flash.png"),
      ("cost", .string "300"), ("manufacturer", .string "Godox"),
      ("count", .int 2)]⟩]

/-- The camera is not delivered either: the completion is not called. -/
theorem snapshots_answered_fails :
    getItems (.ok pricedByText) = [] ∧
      ¬ Answered Item.Shows pricedByText (getItems (.ok pricedByText)) := by
  have hnone : getItems (.ok pricedByText) = [] := by decide
  refine ⟨hnone, fun h => ?_⟩
  have hone := h.1
  rw [hnone] at hone
  cases hone

end NetworkService

end PhoRent
