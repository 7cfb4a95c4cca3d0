import Mathlib.Algebra.Order.Field.Rat
import Mathlib.Data.Finset.Erase
import Mathlib.Data.Finset.Insert
import PhoRent.Lib.Machine

/-!
# `CategoryPresenter` and its screen

The presenter keeps two lists: `items`, the latest snapshot of the category
with what has been added since taken off, and `shownItems`, the part of it on
the screen. The view has a copy of the second. A filter, or an item running
out, makes them differ.

A row's button has captured the item of the row and the row's number. The add
is sent for the item; the block that runs once it has been accepted goes by
the number. The first time the view is filled it has the presenter collect the
manufacturers and the range of costs.

`CGFloat` is taken as an exact number here.
-/

namespace PhoRent

structure Item where
  name : String
  cost : ℤ
  manufacturer : String
  imageURL : String
  count : ℤ
  ID : String
  deriving DecidableEq, Repr

structure CostRange where
  minCost : Option ℚ
  maxCost : Option ℚ
  deriving DecidableEq, Repr

structure CategoryPresenter where
  items : Option (List Item)
  shownItems : Option (List Item)
  manufacturers : Finset String
  checkManufacturers : Finset String
  costRange : CostRange
  deriving DecidableEq

namespace CategoryPresenter

def init : CategoryPresenter := ⟨none, none, ∅, ∅, ⟨none, none⟩⟩

variable (self : CategoryPresenter)

def getMaxCost : Option ℤ :=
  self.items.bind fun items => (items.map Item.cost).max?

def getMinCost : Option ℤ :=
  self.items.bind fun items => (items.map Item.cost).min?

def getCostRange : CategoryPresenter :=
  match self.getMinCost, self.getMaxCost with
  | some minCost, some maxCost =>
      { self with costRange := ⟨some minCost, some maxCost⟩ }
  | _, _ => self

def setCostRange (minCost maxCost : ℚ) : CategoryPresenter :=
  { self with costRange := ⟨some minCost, some maxCost⟩ }

def getManufacturers : CategoryPresenter :=
  match self.items with
  | some items =>
      let manufacturers := (items.map Item.manufacturer).toFinset
      { self with
        manufacturers := manufacturers
        checkManufacturers := manufacturers }
  | none => self

def appendManufacturer (name : String) : CategoryPresenter :=
  { self with checkManufacturers := insert name self.checkManufacturers }

def reduseManufacturer (name : String) : CategoryPresenter :=
  { self with checkManufacturers := self.checkManufacturers.erase name }

def containsManufacturer (name : String) : Bool :=
  if name ∈ self.checkManufacturers then true else false

/-- The condition of `filterItems`, from left to right. A key that is missing
traps, if it is looked at. -/
def passes (item : Item) : Option Bool :=
  if item.manufacturer ∈ self.checkManufacturers then do
    let minCost ← self.costRange.minCost
    if minCost ≤ item.cost then do
      let maxCost ← self.costRange.maxCost
      return item.cost ≤ maxCost
    else return false
  else return false

def filtered : List Item → Option (List Item)
  | [] => some []
  | item :: rest => do
      let keep ← self.passes item
      let rest ← filtered rest
      return if keep then item :: rest else rest

def filterItems : Option CategoryPresenter := do
  let shown ← self.filtered (self.items.getD [])
  return { self with shownItems := some shown }

/-- `items?[itemIndex].count -= count`, which traps out of range. -/
def lowerCount (itemIndex : ℕ) (count : ℤ) : Option CategoryPresenter :=
  match self.items with
  | none => some self
  | some items =>
      if itemIndex < items.length then
        some { self with
          items := some (items.modify itemIndex fun item =>
            { item with count := item.count - count }) }
      else none

end CategoryPresenter

/-! ## The screen -/

structure CategoryView where
  items : Option (List Item)
  updated : Bool
  filtersAreAvialable : Bool
  deriving DecidableEq, Repr

/-- An add that has been sent off. Its block has captured the index and the
count. -/
structure PendingAdd where
  itemID : String
  itemIndex : ℕ
  count : ℤ
  deriving DecidableEq, Repr

structure CategoryScreen where
  presenter : CategoryPresenter
  view : CategoryView
  adds : List PendingAdd
  deriving DecidableEq

/-- `filtersClosed` comes with what is selected on the filters' slider. -/
inductive CategoryEvent
  | snapshot (items : List Item)
  | snapshotFailed
  | manufacturerAppended (name : String)
  | manufacturerRedused (name : String)
  | filtersClosed (minCost maxCost : ℚ)
  | addTapped (row : ℕ) (count : ℤ) (isConnectedToNetwork : Bool)
  | added (k : ℕ)
  | addFailed

namespace CategoryScreen

def start : CategoryScreen := ⟨.init, ⟨none, false, false⟩, []⟩

variable (self : CategoryScreen)

def success : CategoryScreen :=
  if self.view.items.map List.length = some 0 then self
  else
    { self with
      presenter :=
        if self.view.updated then self.presenter
        else self.presenter.getManufacturers.getCostRange
      view := { self.view with updated := true, filtersAreAvialable := true } }

def failure : CategoryScreen :=
  { self with view := { self.view with filtersAreAvialable := false } }

/-- `view?.setItems(items: self.shownItems)`, and `view?.success()`. -/
def showItems : CategoryScreen :=
  { self with
    view := { self.view with items := self.presenter.shownItems } }.success

def snapshot (items : List Item) : CategoryScreen :=
  { self with
    presenter := { self.presenter with
      items := some items
      shownItems := some items } }.showItems

def closeFilters : Option CategoryScreen := do
  let presenter ← self.presenter.filterItems
  return { self with presenter := presenter }.showItems

/-- `NetworkService.addItemInBasket` reports success before it returns, so a
block of the add is queued at once. -/
def addItemInBasket (itemID : String) (count : ℤ) (itemIndex : ℕ)
    (isConnectedToNetwork : Bool) : CategoryScreen :=
  if isConnectedToNetwork then
    { self with adds := self.adds ++ [⟨itemID, itemIndex, count⟩] }
  else self.failure

def reloadDataAfterAdd : CategoryScreen :=
  { self with
    presenter := { self.presenter with
      shownItems := self.presenter.items.map
        (List.filter fun item => 0 < item.count) } }.showItems

/-- The block of an add that has been accepted. -/
def addDone (add : PendingAdd) : Option CategoryScreen := do
  let presenter ← self.presenter.lowerCount add.itemIndex add.count
  return { self with presenter := presenter }.reloadDataAfterAdd

def row (k : ℕ) : Option Item := self.view.items.bind fun items => items[k]?

def handle : CategoryEvent → Option CategoryScreen
  | .snapshot items => some (self.snapshot items)
  | .snapshotFailed => some self.failure
  | .manufacturerAppended name =>
      some { self with presenter := self.presenter.appendManufacturer name }
  | .manufacturerRedused name =>
      some { self with presenter := self.presenter.reduseManufacturer name }
  | .filtersClosed minCost maxCost =>
      { self with
        presenter := self.presenter.setCostRange minCost maxCost }.closeFilters
  | .addTapped k count isConnectedToNetwork =>
      (self.row k).map fun item =>
        self.addItemInBasket item.ID count k isConnectedToNetwork
  | .added k =>
      self.adds[k]?.bind fun add =>
        { self with adds := self.adds.eraseIdx k }.addDone add
  | .addFailed => some self

end CategoryScreen

end PhoRent
