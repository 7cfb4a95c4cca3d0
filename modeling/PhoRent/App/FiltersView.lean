import Mathlib.Data.Finset.Sort
import Mathlib.Data.String.Basic
import PhoRent.App.CategoryPresenter

/-!
# `FiltersViewController`

The popover with the filters has a slider for the costs and a table of
manufacturers. Both are filled when it opens: the slider with the range of the
costs as of now and with what was selected last, the table from the set the
presenter has. Closing it, the presenter gets what the slider has selected and
filters.

The slider is given its range and then the two values selected, and makes of
them what it will; it is a parameter. Of the table it is enough to know how
many rows it has been told, since it asks for no others.
-/

namespace PhoRent

/-- Two values of a slider: its ends, or what is selected. -/
structure Bounds where
  minValue : ℚ
  maxValue : ℚ
  deriving DecidableEq, Repr

abbrev Slider := Bounds → Bounds → Bounds

/-- `RangeSeekSlider`: the lower value is not let below its end, the upper one
not above. -/
def RangeSeekSlider.selected : Slider := fun ends given =>
  ⟨max given.minValue ends.minValue, min given.maxValue ends.maxValue⟩

/-- A slider that keeps both values between its ends. -/
def clamped : Slider := fun ends given =>
  ⟨max ends.minValue (min given.minValue ends.maxValue),
    max ends.minValue (min given.maxValue ends.maxValue)⟩

/-- `rows` is what the table was told by `numberOfRowsInSection`. -/
structure FiltersView where
  selected : Bounds
  manufacturersArray : List String
  rows : ℕ
  deriving DecidableEq, Repr

namespace FiltersView

variable (slider : Slider) (presenter : CategoryPresenter)

def setupView : Option Bounds := do
  let minCost ← presenter.getMinCost
  let maxCost ← presenter.getMaxCost
  let ends : Bounds := ⟨minCost, maxCost⟩
  return slider ends ⟨presenter.costRange.minCost.getD ends.minValue,
    presenter.costRange.maxCost.getD ends.maxValue⟩

/-- The array has the manufacturers in some order. -/
def viewDidLoad : Option FiltersView := do
  let selected ← setupView slider presenter
  return ⟨selected, presenter.manufacturers.sort (· ≤ ·), 0⟩

def arrayOfSet (manufacturersSet : Finset String) : List String :=
  manufacturersSet.sort (· ≤ ·)

def numberOfRows : ℕ := presenter.manufacturers.card

def cellForRow (self : FiltersView) (row : ℕ) : Option String :=
  self.manufacturersArray[row]?

end FiltersView

/-! ## The screen with its popover -/

structure FilteredScreen where
  category : CategoryScreen
  filters : Option FiltersView
  deriving DecidableEq

/-- `rowsAsked` and `cellAsked` come from the table of manufacturers. -/
inductive FiltersEvent
  | category (e : CategoryEvent)
  | popoverTapped
  | rowsAsked
  | cellAsked (row : ℕ)
  | sliderMoved (selected : Bounds)
  | popoverClosed

namespace FilteredScreen

def start : FilteredScreen := ⟨.start, none⟩

variable (slider : Slider) (self : FilteredScreen)

/-- `showFiltersPopover()`. A second popover is not presented. -/
def showFiltersPopover : Option FilteredScreen :=
  if self.filters = none ∧ self.category.view.filtersAreAvialable = true then
    (FiltersView.viewDidLoad slider self.category.presenter).map fun filters =>
      { self with filters := some filters }
  else some self

def viewWillDisappear (filters : FiltersView) : Option FilteredScreen :=
  (self.category.handle (.filtersClosed filters.selected.minValue
    filters.selected.maxValue)).map fun category => ⟨category, none⟩

def handle : FiltersEvent → Option FilteredScreen
  | .category e =>
      (self.category.handle e).map fun category =>
        { self with category := category }
  | .popoverTapped => self.showFiltersPopover slider
  | .rowsAsked => self.filters.map fun filters =>
      { self with
        filters := some { filters with
          rows := FiltersView.numberOfRows self.category.presenter } }
  | .cellAsked row =>
      (self.filters.bind fun filters => filters.cellForRow row).map fun _ => self
  | .sliderMoved selected => self.filters.map fun filters =>
      { self with filters := some { filters with selected := selected } }
  | .popoverClosed => self.filters.bind self.viewWillDisappear

/-- What can happen: the popover's controls are used while it is open, and the
table asks for rows it has been told of. -/
def Possible (s : FilteredScreen) : FiltersEvent → Prop
  | .category (.manufacturerAppended _) | .category (.manufacturerRedused _) =>
      s.filters ≠ none
  | .category (.filtersClosed _ _) => False
  | .category _ | .popoverTapped => True
  | .rowsAsked | .sliderMoved _ | .popoverClosed => s.filters ≠ none
  | .cellAsked row => ∃ filters ∈ s.filters, row < filters.rows

instance (s : FilteredScreen) : DecidablePred s.Possible
  | .category (.manufacturerAppended _) | .category (.manufacturerRedused _) =>
      inferInstanceAs (Decidable (s.filters ≠ none))
  | .category (.filtersClosed _ _) => .isFalse id
  | .category (.snapshot _) | .category .snapshotFailed
  | .category (.addTapped _ _ _) | .category (.added _) | .category .addFailed
  | .popoverTapped => .isTrue trivial
  | .rowsAsked | .sliderMoved _ | .popoverClosed =>
      inferInstanceAs (Decidable (s.filters ≠ none))
  | .cellAsked row => inferInstanceAs
      (Decidable (∃ filters ∈ s.filters, row < filters.rows))

end FilteredScreen

end PhoRent
