import Mathlib.Tactic.Linarith
import PhoRent.App.BasketPresenter
import PhoRent.Lib.Machine

/-!
# `BasketViewController` and its screen

The view shows what it is told: the presenter hands it a total and a date, and
the table asks the presenter for its rows when it is reloaded. The number of
days it keeps on its own, in the stepper and in a label beside it, and tells
the presenter of every change.

The screen is the view and the presenter together, handling on the main queue
whatever happens: snapshots of the basket, the user's taps, and the
completions of the requests sent. `NetworkService.removeFromBasket` calls its
completion with success before it returns, so the block of a removal is queued
at the tap; a failure it may report later comes on top of that.
-/

namespace PhoRent

/-- A `UIStepper`, which moves by one. -/
structure Stepper where
  minimumValue : ℤ
  maximumValue : ℤ
  value : ℤ
  lower : minimumValue ≤ value
  upper : value ≤ maximumValue
  deriving DecidableEq, Repr

namespace Stepper

def standard : Stepper := ⟨0, 100, 0, by decide, by decide⟩

/-- Raising the minimum takes the value and the maximum along. -/
def setMinimum (self : Stepper) (m : ℤ) : Stepper where
  minimumValue := m
  maximumValue := max self.maximumValue m
  value := max self.value m
  lower := le_max_right _ _
  upper := max_le_max self.upper (le_refl m)

def setMaximum (self : Stepper) (m : ℤ) : Stepper where
  minimumValue := min self.minimumValue m
  maximumValue := m
  value := min self.value m
  lower := min_le_min self.lower (le_refl m)
  upper := min_le_right _ _

/-- A tap, which has no effect at the bound. -/
def tap (self : Stepper) (up : Bool) : Option Stepper :=
  if h : up = true ∧ self.value < self.maximumValue then
    some { self with
      value := self.value + 1
      lower := by linarith [self.lower]
      upper := h.2 }
  else if h : up = false ∧ self.minimumValue < self.value then
    some { self with
      value := self.value - 1
      lower := Int.le_sub_one_of_lt h.2
      upper := by linarith [self.upper] }
  else none

end Stepper

/-! ## The view -/

/-- `rows` are the items behind the rows, as of the last reload. -/
structure BasketView where
  rows : List BasketItem
  dateLabel : Option String
  totalLabel : String
  countDayLabel : String
  dayStepper : Stepper
  deriving DecidableEq, Repr

namespace BasketView

def countDayString : String := "Количество дней аренды: "

def dayText (days : ℤ) : String := countDayString ++ toString days

def dateText (newDate : String) : String := "Дата начала аренды: " ++ newDate

def totalText (newTotalCost : ℤ) : String :=
  "Итого: " ++ toString newTotalCost ++ " руб."

def setupUI : BasketView where
  rows := []
  dateLabel := none
  totalLabel := "Итого: "
  countDayLabel := countDayString ++ "1"
  dayStepper := (Stepper.standard.setMinimum 1).setMaximum 30

/-- What the presenter asks for is done; `items` is what the table finds when
it is reloaded. -/
def perform (items : List BasketItem) (self : BasketView) :
    BasketEffect → BasketView
  | .updateDateLabel newDate => { self with dateLabel := some (dateText newDate) }
  | .updateTotal newTotalCost =>
      { self with totalLabel := totalText newTotalCost }
  | .updateTable => { self with rows := items }
  | .clearData => { self with countDayLabel := countDayString ++ "1" }
  | .closeAlert | .closeAlertWith _ | .failure | .showSmallAlert _
  | .showAlert _ | .showNoInternetConnection | .putOrder _
  | .removeFromBasket _ _ _ => self

end BasketView

/-! ## The screen -/

/-- `removed` is the block of a removal and `removeFailed` the failure its
call may still report; `orderAnswered` is the answer for the order document of
a tap, `deleteFailed` that for a line. -/
inductive BasketScreenEvent (Date : Type)
  | snapshot (items : List BasketItem) (now : Date)
  | snapshotFailed
  | stepperTapped (up : Bool)
  | dateChanged (newDate : Date)
  | removeTapped (index : ℕ)
  | removed
  | removeFailed
  | orderTapped (isConnectedToNetwork : Bool)
  | orderAnswered (result : NetResult) (now : Date)
  | deleteFailed (now : Date)

/-- Beside presenter and view: the blocks of removals queued, the order
documents not answered yet, and whether a snapshot has not been shown and
nothing has brought the view up to date since. -/
structure BasketScreen where
  presenter : BasketPresenter
  view : BasketView
  removals : ℕ
  orders : ℕ
  hidden : Bool
  deriving DecidableEq, Repr

namespace BasketScreen

variable {Date : Type} (formatter : DateFormatter Date)

def start : BasketScreen := ⟨.init, .setupUI, 0, 0, false⟩

/-- A method of the presenter has run. No method changes the items once it has
asked for a reload. -/
def after (self : BasketScreen) (r : BasketPresenter × List BasketEffect) :
    BasketScreen :=
  let items := (r.1.currentOrder.map Order.items).getD []
  { self with
    presenter := r.1
    view := r.2.foldl (BasketView.perform items) self.view }

def stepperChanged (self : BasketScreen) (up : Bool) : BasketScreen :=
  match self.view.dayStepper.tap up with
  | none => self
  | some dayStepper =>
      let view := { self.view with
        dayStepper := dayStepper
        countDayLabel :=
          BasketView.countDayString ++ toString dayStepper.value }
      { self with view := view }.after
        (self.presenter.updateCountOfDay dayStepper.value)

def removalsSent (effects : List BasketEffect) : ℕ :=
  effects.countP fun
    | .removeFromBasket _ _ _ => true
    | _ => false

def handle (self : BasketScreen) :
    BasketScreenEvent Date → Option BasketScreen
  | .snapshot items now =>
      some { self.after (self.presenter.setOrder formatter now items) with
        hidden := self.presenter.isPutOrderProcess }
  | .snapshotFailed => some (self.after (self.presenter, [.failure]))
  | .stepperTapped up => some (self.stepperChanged up)
  | .dateChanged newDate =>
      some (self.after (self.presenter.updateDate formatter newDate))
  | .removeTapped index =>
      (self.presenter.removeFromBasket index).map fun r =>
        { self.after r with removals := self.removals + removalsSent r.2 }
  | .removed =>
      if self.removals = 0 then none
      else (self.presenter.removeFromBasketCompleted
          (.success "Товар удален из корзины!")).map fun r =>
        { self.after r with removals := self.removals - 1, hidden := false }
  | .removeFailed =>
      (self.presenter.removeFromBasketCompleted .failure).map self.after
  | .orderTapped isConnectedToNetwork =>
      let r := self.presenter.putOrder isConnectedToNetwork
      some { self.after r with
        orders := self.orders + (BasketPresenter.ordersSent r.2).length }
  | .orderAnswered result now =>
      if self.orders = 0 then none
      else some { self.after
          (self.presenter.putOrderCompleted formatter now result) with
        orders := self.orders - 1
        hidden := self.hidden && result = .failure }
  | .deleteFailed now =>
      some (self.after (self.presenter.putOrderCompleted formatter now .failure))

end BasketScreen

end PhoRent
