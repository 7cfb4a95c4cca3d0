import PhoRent.App.FiltersView
import PhoRent.Lib.Keyed

/-!
# The page of a category with all of its popover

What `FiltersView` takes as given is here as well. The slider is
`RangeSeekSlider` with the properties the popover leaves as they are: no steps,
no distance to keep between its two values. The cells of the table each have a
check box, which is a picture that is hidden or not, and a tap turns it over
and tells the presenter which it is now.

A touch on the slider comes with the handle it is taken to be on, and its moves
with how far along the line they are, which may be beyond both ends. A cell is
set up anew for every row it is used for, so it makes no difference which of
the cells that are out of sight it was.
-/

namespace PhoRent

/-! ## The slider -/

inductive HandleTracking
  | none
  | left
  | right
  deriving DecidableEq, Repr

structure RangeSeekSlider where
  minValue : ℚ
  maxValue : ℚ
  selectedMinValue : ℚ
  selectedMaxValue : ℚ
  handleTracking : HandleTracking
  deriving DecidableEq, Repr

namespace RangeSeekSlider

def init : RangeSeekSlider := ⟨0, 100, 0, 100, .none⟩

def minDistance : ℚ := 0

variable (self : RangeSeekSlider)

/-- An assignment to `selectedMinValue`, with its `didSet`. -/
def setSelectedMinValue (newValue : ℚ) : RangeSeekSlider :=
  { self with
    selectedMinValue :=
      if newValue < self.minValue then self.minValue else newValue }

def setSelectedMaxValue (newValue : ℚ) : RangeSeekSlider :=
  { self with
    selectedMaxValue :=
      if newValue > self.maxValue then self.maxValue else newValue }

/-- The values are kept apart, by moving the one that is tracked. -/
def keepDistance : RangeSeekSlider :=
  if self.selectedMaxValue - self.selectedMinValue < minDistance then
    match self.handleTracking with
    | .left => self.setSelectedMinValue (self.selectedMaxValue - minDistance)
    | .right => self.setSelectedMaxValue (self.selectedMinValue + minDistance)
    | .none => self
  else self

def raiseMinimum : RangeSeekSlider :=
  if self.selectedMinValue < self.minValue then
    self.setSelectedMinValue self.minValue
  else self

def lowerMaximum : RangeSeekSlider :=
  if self.selectedMaxValue > self.maxValue then
    self.setSelectedMaxValue self.maxValue
  else self

/-- No distance is greater than `maxDistance`, which is
`greatestFiniteMagnitude`. -/
def refresh : RangeSeekSlider := self.keepDistance.raiseMinimum.lowerMaximum

def setMinValue (newValue : ℚ) : RangeSeekSlider :=
  { self with minValue := newValue }.refresh

def setMaxValue (newValue : ℚ) : RangeSeekSlider :=
  { self with maxValue := newValue }.refresh

def beginTracking (handle : HandleTracking) : RangeSeekSlider :=
  { self with handleTracking := handle }

def continueTracking (percentage : ℚ) : RangeSeekSlider :=
  let selectedValue :=
    percentage * (self.maxValue - self.minValue) + self.minValue
  match self.handleTracking with
  | .left =>
      (self.setSelectedMinValue
        (min selectedValue self.selectedMaxValue)).refresh
  | .right =>
      (self.setSelectedMaxValue
        (max selectedValue self.selectedMinValue)).refresh
  | .none => self

def endTracking : RangeSeekSlider := { self with handleTracking := .none }

end RangeSeekSlider

/-! ## The cells -/

/-- `isHidden` is that of the check box's picture. -/
structure ManufacturerTableViewCell where
  manufacturerNameLabel : String
  isHidden : Bool
  deriving DecidableEq, Repr

namespace ManufacturerTableViewCell

variable (self : ManufacturerTableViewCell)

/-- A cell with its name, once `reload()` has called `setCheckbox()`. -/
def setCheckbox (presenter : CategoryPresenter) (name : String) :
    ManufacturerTableViewCell :=
  ⟨name, !presenter.containsManufacturer name⟩

def tapped : ManufacturerTableViewCell :=
  { self with isHidden := !self.isHidden }

def told : CategoryEvent :=
  if self.tapped.isHidden then .manufacturerRedused self.manufacturerNameLabel
  else .manufacturerAppended self.manufacturerNameLabel

end ManufacturerTableViewCell

/-! ## The popover -/

/-- The cells are those in sight, under their rows. -/
structure FiltersViewController where
  costRangeSlider : RangeSeekSlider
  manufacturersArray : List String
  rows : ℕ
  cells : Keyed.Coll ℕ ManufacturerTableViewCell

namespace FiltersViewController

variable (presenter : CategoryPresenter) (self : FiltersViewController)

/-- The slider's part of `setupView()`: four assignments, in this order. -/
def setupView : Option RangeSeekSlider := do
  let minCost ← presenter.getMinCost
  let slider := RangeSeekSlider.init.setMinValue minCost
  let maxCost ← presenter.getMaxCost
  let slider := slider.setMaxValue maxCost
  let slider := slider.setSelectedMinValue
    (presenter.costRange.minCost.getD slider.minValue)
  return slider.setSelectedMaxValue
    (presenter.costRange.maxCost.getD slider.maxValue)

def viewDidLoad : Option FiltersViewController := do
  let slider ← setupView presenter
  return ⟨slider, FiltersView.arrayOfSet presenter.manufacturers, 0, .empty⟩

/-- `cellForRowAt`, which traps out of range. -/
def cellForRow (row : ℕ) : Option FiltersViewController :=
  self.manufacturersArray[row]?.map fun name =>
    { self with cells := self.cells.put row (.setCheckbox presenter name) }

end FiltersViewController

/-! ## The page -/

structure FiltersPage where
  category : CategoryScreen
  filters : Option FiltersViewController

/-- `cellGone` is a cell that is scrolled out of sight. -/
inductive FiltersPageEvent
  | category (e : CategoryEvent)
  | popoverTapped
  | rowsAsked
  | cellAsked (row : ℕ)
  | cellGone (row : ℕ)
  | cellTapped (row : ℕ)
  | beginTracking (handle : HandleTracking)
  | continueTracking (percentage : ℚ)
  | endTracking
  | popoverClosed

namespace FiltersPage

def start : FiltersPage := ⟨.start, none⟩

variable (self : FiltersPage)

/-- Something is done to the slider of the open popover. -/
def slide (f : RangeSeekSlider → RangeSeekSlider) : Option FiltersPage :=
  self.filters.map fun filters =>
    { self with
      filters := some { filters with
        costRangeSlider := f filters.costRangeSlider } }

def showFiltersPopover : Option FiltersPage :=
  if self.filters.isNone ∧ self.category.view.filtersAreAvialable = true then
    (FiltersViewController.viewDidLoad self.category.presenter).map
      fun filters => { self with filters := some filters }
  else some self

/-- A cell turns its picture over, and the presenter is told. -/
def tapped (filters : FiltersViewController) (row : ℕ)
    (cell : ManufacturerTableViewCell) : Option FiltersPage :=
  (self.category.handle cell.told).map fun category =>
    ⟨category, some { filters with cells := filters.cells.put row cell.tapped }⟩

def viewWillDisappear (filters : FiltersViewController) : Option FiltersPage :=
  (self.category.handle (.filtersClosed
    filters.costRangeSlider.selectedMinValue
    filters.costRangeSlider.selectedMaxValue)).map fun category =>
      ⟨category, none⟩

def handle : FiltersPageEvent → Option FiltersPage
  | .category e =>
      (self.category.handle e).map fun category =>
        { self with category := category }
  | .popoverTapped => self.showFiltersPopover
  | .rowsAsked => self.filters.map fun filters =>
      { self with
        filters := some { filters with
          rows := FiltersView.numberOfRows self.category.presenter } }
  | .cellAsked row => self.filters.bind fun filters =>
      (filters.cellForRow self.category.presenter row).map fun filters =>
        { self with filters := some filters }
  | .cellGone row => self.filters.map fun filters =>
      { self with
        filters := some { filters with cells := filters.cells.erase row } }
  | .cellTapped row => self.filters.bind fun filters =>
      (filters.cells.get row).bind (self.tapped filters row)
  | .beginTracking handle => self.slide fun slider =>
      slider.beginTracking handle
  | .continueTracking percentage => self.slide fun slider =>
      slider.continueTracking percentage
  | .endTracking => self.slide RangeSeekSlider.endTracking
  | .popoverClosed => self.filters.bind self.viewWillDisappear

/-- What can happen: what is in the popover is used while it is open, the table
asks for rows it has been told of, and a tap meets a cell. -/
def Possible (s : FiltersPage) : FiltersPageEvent → Prop
  | .category (.manufacturerAppended _) | .category (.manufacturerRedused _)
  | .category (.filtersClosed _ _) => False
  | .category _ | .popoverTapped => True
  | .rowsAsked | .cellGone _ | .beginTracking _ | .continueTracking _
  | .endTracking | .popoverClosed => s.filters.isSome
  | .cellAsked row => ∃ filters ∈ s.filters, row < filters.rows
  | .cellTapped row => ∃ filters ∈ s.filters, (filters.cells.get row).isSome

instance (s : FiltersPage) : DecidablePred s.Possible
  | .category (.manufacturerAppended _) | .category (.manufacturerRedused _)
  | .category (.filtersClosed _ _) => .isFalse id
  | .category (.snapshot _) | .category .snapshotFailed
  | .category (.addTapped _ _ _) | .category (.added _) | .category .addFailed
  | .popoverTapped => .isTrue trivial
  | .rowsAsked | .cellGone _ | .beginTracking _ | .continueTracking _
  | .endTracking | .popoverClosed =>
      inferInstanceAs (Decidable (s.filters.isSome = true))
  | .cellAsked row => inferInstanceAs
      (Decidable (∃ filters ∈ s.filters, row < filters.rows))
  | .cellTapped row => inferInstanceAs
      (Decidable (∃ filters ∈ s.filters, (filters.cells.get row).isSome = true))

end FiltersPage

end PhoRent
