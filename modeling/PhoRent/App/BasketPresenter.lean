import PhoRent.App.NetworkService

/-!
# `BasketPresenter`

The presenter keeps the basket on the screen as an order that is not placed
yet. Snapshots of the basket replace its items, the stepper and the date
picker its days and date, and the button sends it off. Everything here runs on
the main queue, so a method is a function of the presenter that also says, in
order, what it asks of the view and of the network service.

What `DateFormatter` makes of a date and of a string is not the app's code;
it is a parameter, and so is the present time.
-/

namespace PhoRent

/-- A `DateFormatter` set to `dd.MM.yyyy`. -/
structure DateFormatter (Date : Type) where
  string : Date → String
  date : String → Option Date

inductive BasketEffect
  | closeAlert
  | failure
  | updateDateLabel (newDate : String)
  | updateTotal (newTotalCost : ℤ)
  | updateTable
  | showSmallAlert (smallMessage : String)
  | showAlert (message : String)
  | clearData
  | showNoInternetConnection
  -- `closeAlert(completionMessage:)`
  | closeAlertWith (completionMessage : String)
  -- `networkService.putOrder`
  | putOrder (order : Order)
  -- `networkService.removeFromBasket`
  | removeFromBasket (itemID dbItemID categoryID : String)
  deriving DecidableEq, Repr

structure BasketPresenter where
  isPutOrderProcess : Bool
  currentOrder : Option Order
  deriving DecidableEq, Repr

namespace BasketPresenter

variable {Date : Type} (formatter : DateFormatter Date) (now : Date)
  (self : BasketPresenter)

def init : BasketPresenter := ⟨false, none⟩

def countTotal (items : Option (List BasketItem)) : ℤ :=
  ((items.getD []).map fun item => item.cost * item.count).sum *
    (self.currentOrder.map Order.countOfDay).getD 1

def updateCountOfDay (newCount : ℤ) : BasketPresenter × List BasketEffect :=
  let self := { self with
    currentOrder := self.currentOrder.map fun order =>
      { order with countOfDay := newCount } }
  (self, [.updateTotal (self.countTotal (self.currentOrder.map Order.items))])

def updateDate (newDate : Date) : BasketPresenter × List BasketEffect :=
  let dateString := formatter.string newDate
  ({ self with
      currentOrder := self.currentOrder.map fun order =>
        { order with date := dateString } },
    [.updateDateLabel dateString])

def getDate : Date :=
  match self.currentOrder with
  | some order => (formatter.date order.date).getD now
  | none => now

def setOrder (items : List BasketItem) : BasketPresenter × List BasketEffect :=
  let self := { self with
    currentOrder := some (match self.currentOrder with
      | some order => { order with items := items }
      | none => ⟨"", "", 1, "В корзине", items⟩) }
  if self.isPutOrderProcess then (self, [])
  else
    let total := self.countTotal (self.currentOrder.map Order.items)
    let (self, shown) :=
      self.updateDate formatter (self.getDate formatter now)
    (self, [.closeAlert, .updateTable, .updateTotal total] ++ shown)

def putOrder (isConnectedToNetwork : Bool) :
    BasketPresenter × List BasketEffect :=
  match self.currentOrder with
  | none => (self, [.showAlert "Корзина пуста!"])
  | some order =>
      if order.items = [] then (self, [.showAlert "Корзина пуста!"])
      else if isConnectedToNetwork then
        ({ self with isPutOrderProcess := true },
          [.putOrder order, .showSmallAlert "Отправка заказа..."])
      else (self, [.showNoInternetConnection])

/-- The view's `clearData()`, which comes back with today's date. -/
def clearData : BasketPresenter × List BasketEffect :=
  let (self, shown) := self.updateDate formatter now
  (self, .clearData :: shown)

def putOrderDone : BasketPresenter × List BasketEffect :=
  let self := { self with isPutOrderProcess := false }
  let self := { self with currentOrder := none }
  let (self, shown) := self.setOrder formatter now []
  let (self, cleared) := self.clearData formatter now
  (self, shown ++ cleared ++ [.showAlert "Заказ оформлен"])

/-- The completion `putOrder` hands to the network service. -/
def putOrderCompleted (result : NetResult) :
    BasketPresenter × List BasketEffect :=
  match result with
  | .failure => (self, [.failure])
  | .success _ => self.putOrderDone formatter now

/-- `removeFromBasket(index:)`. There is no next state where the index is out
of range. -/
def removeFromBasket (index : ℕ) : Option (BasketPresenter × List BasketEffect) :=
  match self.currentOrder with
  | none => some (self, [])
  | some order =>
      (order.items[index]?).map fun item =>
        ({ self with
            currentOrder := some { order with
              items := order.items.eraseIdx index } },
          [.removeFromBasket item.itemID item.dbItemID item.categoryID,
            .showSmallAlert "Подождите..."])

def removeItemDone (message : String) : BasketPresenter × List BasketEffect :=
  (self, [.closeAlertWith message])

/-- The completion `removeFromBasket` hands to the network service. A success
takes the order for granted, and traps without one. -/
def removeFromBasketCompleted (result : NetResult) :
    Option (BasketPresenter × List BasketEffect) :=
  match result with
  | .success message => self.currentOrder.map fun order =>
      let (self', shown) := self.removeItemDone message
      (self', [.updateTotal (self.countTotal (some order.items)),
        .updateTable] ++ shown)
  | .failure =>
      some (self.removeItemDone "Не удалось удалить товар из корзины!")

/-! ## The rows of the table -/

def getNumberOfRow : ℕ :=
  (self.currentOrder.map fun order => order.items.length).getD 0

/-- The texts and the picture of a cell, with a text for a row there is not. -/
def getItem (index : ℕ) : String × String × ℤ × String :=
  match self.currentOrder.bind fun order => order.items[index]? with
  | some item =>
      (item.name, toString item.cost ++ " руб./сут.", item.count, item.imageURL)
  | none => ("error", "error", 0, "")

/-! ## The lines on the screen -/

def lineIDs : List String :=
  ((self.currentOrder.map Order.items).getD []).map BasketItem.itemID

def ordersSent (effects : List BasketEffect) : List Order :=
  effects.filterMap fun
    | .putOrder order => some order
    | _ => none

@[simp] theorem lineIDs_updateCountOfDay (n : ℤ) :
    (self.updateCountOfDay n).1.lineIDs = self.lineIDs := by
  cases h : self.currentOrder <;> simp [updateCountOfDay, lineIDs, h]

@[simp] theorem lineIDs_updateDate (newDate : Date) :
    (self.updateDate formatter newDate).1.lineIDs = self.lineIDs := by
  cases h : self.currentOrder <;> simp [updateDate, lineIDs, h]

@[simp] theorem lineIDs_setOrder (items : List BasketItem) :
    (self.setOrder formatter now items).1.lineIDs =
      items.map BasketItem.itemID := by
  simp only [setOrder]
  split
  · cases self.currentOrder <;> rfl
  · rw [lineIDs_updateDate]
    cases self.currentOrder <;> rfl

@[simp] theorem lineIDs_putOrder (isConnected : Bool) :
    (self.putOrder isConnected).1.lineIDs = self.lineIDs := by
  unfold putOrder
  split
  · rfl
  · split
    · rfl
    · split <;> rfl

@[simp] theorem lineIDs_putOrderDone :
    (self.putOrderDone formatter now).1.lineIDs = [] := by
  simp only [putOrderDone, clearData, lineIDs_updateDate, lineIDs_setOrder,
    List.map_nil]

theorem lineIDs_putOrderCompleted (result : NetResult) :
    (self.putOrderCompleted formatter now result).1.lineIDs ⊆
      self.lineIDs := by
  cases result with
  | failure => exact List.Subset.refl _
  | success message =>
      rw [putOrderCompleted, lineIDs_putOrderDone]
      exact List.nil_subset _

@[simp] theorem ordersSent_setOrder (items : List BasketItem) :
    ordersSent (self.setOrder formatter now items).2 = [] := by
  simp only [setOrder]
  split <;> rfl

@[simp] theorem ordersSent_putOrderCompleted (result : NetResult) :
    ordersSent (self.putOrderCompleted formatter now result).2 = [] := by
  cases result <;> rfl

/-- Only the button sends an order: the current one, unless it is empty. The
flag `isPutOrderProcess` has no say in it. -/
theorem ordersSent_putOrder (isConnected : Bool) :
    ordersSent (self.putOrder isConnected).2 = [] ∨
      ∃ order, self.currentOrder = some order ∧ isConnected = true ∧
        ordersSent (self.putOrder isConnected).2 = [order] := by
  unfold putOrder
  split
  · exact Or.inl rfl
  · next order ho =>
      split
      · exact Or.inl rfl
      · split
        · next hc => exact Or.inr ⟨order, ho, hc, rfl⟩
        · exact Or.inl rfl

end BasketPresenter

end PhoRent
