import PhoRent.Lib.Js
import PhoRent.Lib.Keyed

/-!
# The documents

Three kinds of documents hold rental units: `categories/{categoryID}/items/
{itemID}` the units in stock, `users/{uid}/basket/{lineID}` the units in a
basket, `users/{uid}/orders/{orderID}` the units ordered. The functions and
the client write them by hand, field by field, and so does this file.

The functions are JavaScript, and a `count` is whatever was stored. They only
ever compare, subtract and add counts, so the model takes the type of a count
as a parameter with these three operators: at `Js.Value` it is the code on any
payload and any store, at `ℤ` it is the same code where every count is an
integer and none so large, 2^53 or more, that a double would round it.
-/

namespace PhoRent

/-- What the functions do with the value of a `count` field: `>=`, `-`, `+`,
and handing it to `set`, which refuses some values. -/
class Count (V : Type) where
  ge : V → V → Bool
  sub : V → V → V
  add : V → V → V
  storable : V → Bool

instance : Count ℤ where
  ge a b := decide (b ≤ a)
  sub a b := a - b
  add a b := a + b
  storable _ := true

@[simp] theorem Count.ge_int (a b : ℤ) : Count.ge a b = decide (b ≤ a) := rfl

@[simp] theorem Count.add_int (a b : ℤ) : Count.add a b = a + b := rfl

@[simp] theorem Count.storable_int (a : ℤ) : Count.storable a = true := rfl

mutual

/-- Firestore refuses `undefined` and an array directly inside an array. -/
def storable : Js.Value → Bool
  | .undefined => false
  | .arr l => storableElems l
  | .obj l => storableFields l
  | _ => true

def storableElems : List Js.Value → Bool
  | [] => true
  | .arr _ :: _ => false
  | v :: rest => storable v && storableElems rest

def storableFields : List (String × Js.Value) → Bool
  | [] => true
  | (_, v) :: rest => storable v && storableFields rest

end

instance : Count Js.Value where
  ge := Js.Value.ge
  sub := Js.Value.sub
  add := Js.Value.add
  storable := storable

theorem Count.ge_ofInt {a b : ℤ} (ha : |a| < 2 ^ 53) (hb : |b| < 2 ^ 53) :
    Count.ge (Js.Value.ofInt a) (.ofInt b) = decide (b ≤ a) :=
  Js.Value.ge_ofInt ha hb

theorem Count.sub_ofInt {a b : ℤ} (ha : |a| < 2 ^ 53) (hb : |b| < 2 ^ 53) :
    Count.sub (Js.Value.ofInt a) (.ofInt b) = .ofInt (a - b) :=
  Js.Value.sub_ofInt ha hb

/-- A field the functions copy without looking at it, as the client's `as?`
casts see it: `int` is a number `Int` can represent. -/
inductive FieldValue
  | string (s : String)
  | int (n : ℤ)
  | other
  deriving DecidableEq, Repr

/-- Where an item's stock document lies. Its ids are plain, one segment each:
of nested paths `doc()` takes two may name one document (`x/items/y` with `z`
and `x` with `y/items/z`), and the shop keeps no stock under such a path. -/
structure ItemRef where
  categoryID : String
  itemID : String
  deriving DecidableEq, Repr

/-- `categories/{categoryID}/items/{itemID}`. A document without a `name`
reads as `undefined` there, which is `none`; `fields` are the others, such as
`imageURL`, `manufacturer` and `cost`. -/
structure ItemDoc (V : Type) where
  name : Option String
  count : V
  fields : List (String × FieldValue)

/-- `users/{uid}/basket/{lineID}`: the item's document with three fields set.
The document id of the item goes into the field `itemID`. -/
structure LineDoc (V : Type) extends ItemDoc V where
  itemID : String
  categoryID : String

def LineDoc.ref {V : Type} (d : LineDoc V) : ItemRef :=
  ⟨d.categoryID, d.itemID⟩

/-- An element of the `items` array of an order document. -/
structure OrderElem where
  categoryID : String
  itemID : String
  count : ℤ
  deriving DecidableEq, Repr

def OrderElem.ref (e : OrderElem) : ItemRef := ⟨e.categoryID, e.itemID⟩

/-- `users/{uid}/orders/{orderID}`. -/
structure OrderDoc where
  items : List OrderElem
  status : String
  startDate : String
  countOfDay : ℤ
  deriving DecidableEq, Repr

/-- A document of a user's subcollection: the user and the document id. -/
abbrev UserKey := String ×ₗ String

def userKey (uid docID : String) : UserKey := toLex (uid, docID)

@[simp] theorem userKey_inj {u u' d d' : String} :
    userKey u d = userKey u' d' ↔ u = u' ∧ d = d' := by
  simp [userKey]

/-- The whole database, as far as units go. -/
@[ext]
structure Store (V : Type) where
  items : ItemRef → Option (ItemDoc V)
  basket : Keyed.Coll UserKey (LineDoc V)
  orders : Keyed.Coll UserKey OrderDoc

namespace Store

variable {V : Type}

/-! ## What the operations do -/

/-- `update({count})` on a stock document, which has to exist. -/
def updateItem (s : Store V) (ref : ItemRef) (n : V) : Option (Store V) :=
  (s.items ref).map fun item =>
    { s with items := Function.update s.items ref (some { item with count := n }) }

/-- The document under `users/{uid}/basket/{lineID}`. -/
def line (s : Store V) (uid lineID : String) : Option (LineDoc V) :=
  s.basket.get (userKey uid lineID)

/-- `users/{uid}/basket`, in the order of the document ids. -/
def lines (s : Store V) (uid : String) : List (String × LineDoc V) :=
  (s.basket.docs.filter fun e => (ofLex e.1).1 = uid).map fun e =>
    ((ofLex e.1).2, e.2)

/-- `users/{uid}/basket` where `name == …`. -/
def linesNamed (s : Store V) (uid name : String) : List (String × LineDoc V) :=
  (s.lines uid).filter fun e => e.2.name = some name

def setLine (s : Store V) (uid lineID : String) (d : LineDoc V) : Store V :=
  { s with basket := s.basket.put (userKey uid lineID) d }

/-- `update({count})` of a basket line, which has to exist. -/
def updateLine (s : Store V) (uid lineID : String) (n : V) :
    Option (Store V) :=
  (s.line uid lineID).map fun d => s.setLine uid lineID { d with count := n }

/-- `delete` of a basket line, existing or not. -/
def deleteLine (s : Store V) (uid lineID : String) : Store V :=
  { s with basket := s.basket.erase (userKey uid lineID) }

def setOrder (s : Store V) (uid orderID : String) (d : OrderDoc) : Store V :=
  { s with orders := s.orders.put (userKey uid orderID) d }

/-! ## Reading back -/

theorem updateItem_eq_some {s s' : Store V} {ref : ItemRef} {n : V} :
    s.updateItem ref n = some s' ↔ ∃ item, s.items ref = some item ∧
      s' = { s with
        items := Function.update s.items ref (some { item with count := n }) } := by
  rw [updateItem, Option.map_eq_some_iff]
  exact exists_congr fun item => and_congr_right fun _ => eq_comm

theorem updateItem_items {s s' : Store V} {ref : ItemRef} {n : V}
    (h : s.updateItem ref n = some s') (r : ItemRef) :
    s'.items r = if r = ref
      then (s.items ref).map fun item => { item with count := n }
      else s.items r := by
  obtain ⟨item, hi, rfl⟩ := updateItem_eq_some.mp h
  by_cases hr : r = ref
  · subst hr; simp [hi]
  · simp [hr]

theorem updateItem_same {s : Store V} {ref : ItemRef} {item : ItemDoc V}
    (hi : s.items ref = some item) : s.updateItem ref item.count = some s := by
  rw [updateItem_eq_some]
  refine ⟨item, hi, ?_⟩
  have hitems : Function.update s.items ref (some item) = s.items := by
    rw [← hi, Function.update_eq_self]
  simp [hitems]

theorem updateLine_eq_some {s s' : Store V} {uid lineID : String} {n : V} :
    s.updateLine uid lineID n = some s' ↔ ∃ d, s.line uid lineID = some d ∧
      s' = s.setLine uid lineID { d with count := n } := by
  rw [updateLine, Option.map_eq_some_iff]
  exact exists_congr fun d => and_congr_right fun _ => eq_comm

@[simp] theorem setLine_items (s : Store V) (uid lineID : String)
    (d : LineDoc V) : (s.setLine uid lineID d).items = s.items := rfl

@[simp] theorem deleteLine_items (s : Store V) (uid lineID : String) :
    (s.deleteLine uid lineID).items = s.items := rfl

theorem line_setLine (s : Store V) (uid lineID : String) (d : LineDoc V)
    (uid' lineID' : String) :
    (s.setLine uid lineID d).line uid' lineID' =
      if uid' = uid ∧ lineID' = lineID then some d else s.line uid' lineID' := by
  rw [line, setLine, Keyed.Coll.get_put, line]
  simp

theorem line_deleteLine (s : Store V) (uid lineID uid' lineID' : String) :
    (s.deleteLine uid lineID).line uid' lineID' =
      if uid' = uid ∧ lineID' = lineID then none else s.line uid' lineID' := by
  rw [line, deleteLine, Keyed.Coll.get_erase, line]
  simp

theorem line_of_setLine {s : Store V} {uid lineID u l : String}
    {d d' : LineDoc V} (h : (s.setLine uid lineID d).line u l = some d') :
    (u = uid ∧ l = lineID ∧ d' = d) ∨ s.line u l = some d' := by
  rw [line_setLine] at h
  split at h
  · next heq => exact Or.inl ⟨heq.1, heq.2, (Option.some.inj h).symm⟩
  · exact Or.inr h

theorem line_of_deleteLine {s : Store V} {uid lineID u l : String}
    {d : LineDoc V} (h : (s.deleteLine uid lineID).line u l = some d) :
    s.line u l = some d := by
  rw [line_deleteLine] at h
  split at h
  · cases h
  · exact h

theorem basket_eq_iff {s s' : Store V} :
    s'.basket = s.basket ↔ ∀ u l, s'.line u l = s.line u l := by
  constructor
  · intro h u l
    rw [line, h, line]
  · intro h
    exact Keyed.Coll.ext_get fun k => h (ofLex k).1 (ofLex k).2

theorem mem_lines {s : Store V} {uid lineID : String} {d : LineDoc V} :
    (lineID, d) ∈ s.lines uid ↔ s.line uid lineID = some d := by
  rw [line, ← Keyed.Coll.mem_docs_iff, lines, List.mem_map]
  constructor
  · intro hex
    obtain ⟨⟨k, d'⟩, hk, he⟩ := hex
    obtain ⟨hmem, hu⟩ := List.mem_filter.mp hk
    have hu' : (ofLex k).1 = uid := by simpa using hu
    obtain ⟨rfl, rfl⟩ := Prod.mk.inj he
    rw [← hu']
    exact hmem
  · intro h
    exact ⟨_, List.mem_filter.mpr ⟨h, by simp [userKey]⟩, rfl⟩

theorem mem_linesNamed {s : Store V} {uid name lineID : String}
    {d : LineDoc V} : (lineID, d) ∈ s.linesNamed uid name ↔
      s.line uid lineID = some d ∧ d.name = some name := by
  rw [linesNamed, List.mem_filter, mem_lines]
  simp

theorem linesNamed_eq_nil {s : Store V} {uid name : String} :
    s.linesNamed uid name = [] ↔
      ∀ lineID d, s.line uid lineID = some d → d.name ≠ some name := by
  rw [List.eq_nil_iff_forall_not_mem]
  constructor
  · intro h lineID d hl hn
    exact h (lineID, d) (mem_linesNamed.mpr ⟨hl, hn⟩)
  · intro h e hm
    obtain ⟨hl, hn⟩ := mem_linesNamed.mp hm
    exact h e.1 e.2 hl hn

theorem lines_nodup (s : Store V) (uid : String) :
    ((s.lines uid).map Prod.fst).Nodup := by
  rw [lines, List.map_map]
  refine List.Nodup.map_on ?_ ?_
  · intro x hx y hy hxy
    obtain ⟨hx, hux⟩ := List.mem_filter.mp hx
    obtain ⟨hy, huy⟩ := List.mem_filter.mp hy
    refine Keyed.Coll.eq_of_key hx hy ?_
    refine (ofLex_inj).mp (Prod.ext ?_ hxy)
    rw [of_decide_eq_true hux, of_decide_eq_true huy]
  · refine (s.basket.ordered.imp ?_).filter _
    intro x y hlt heq
    rw [heq] at hlt
    exact lt_irrefl _ hlt

theorem linesNamed_nodup (s : Store V) (uid name : String) :
    ((s.linesNamed uid name).map Prod.fst).Nodup :=
  (s.lines_nodup uid).sublist (List.filter_sublist.map _)

end Store

end PhoRent
