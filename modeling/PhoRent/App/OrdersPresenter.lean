import Mathlib.Algebra.BigOperators.Group.List.Basic
import PhoRent.App.Completions
import PhoRent.Lib.Machine

/-!
# `OrdersPresenter`

The list of orders comes in snapshots, and an order document only has the ids
and the counts of its lines. So for every line the catalogue is asked for the
rest, all at once, and each answer is written where the line was when it was
asked for: the completion has captured two indices, and a countdown it shares
with the others of its snapshot. The table is reloaded when a countdown ends,
in a block of its own.

The table only knows what it was told at its last reload, and goes on asking
for headers and cells of that.
-/

namespace PhoRent

/-- A `fillPreviousItem` under way: the places captured by its completion, and
what it was asked for. `fill` is the call of `fillItems` that sent it. -/
structure FillRequest where
  fill : ℕ
  indexOrder : ℕ
  indexItem : ℕ
  categoryID : String
  itemID : String
  deriving DecidableEq, Repr

inductive FillResult
  | success (data : PreviousItem)
  | failure
  deriving DecidableEq, Repr

/-- Beside the orders: the countdowns, by call of `fillItems`, the requests in
flight, the blocks that will set the table, and the number of rows of each
section the table was told at its last reload. -/
structure OrdersScreen where
  orders : List Order
  counts : List ℤ
  inFlight : List FillRequest
  blocks : ℕ
  told : List ℕ
  deriving DecidableEq, Repr

/-- `filled k` is the answer to the `k`-th request in flight. -/
inductive OrdersEvent
  | snapshot (orders : List Order)
  | snapshotFailed
  | filled (k : ℕ) (result : FillResult)
  | block
  | headerAsked (sectionIndex : ℕ)
  | footerAsked (sectionIndex : ℕ)
  | cellAsked (sectionIndex row : ℕ)
  deriving DecidableEq, Repr

namespace BasketItem

/-- The four fields a completion of `fillPreviousItem` sets. -/
def fill (item : BasketItem) (data : PreviousItem) : BasketItem :=
  { item with
    name := data.name
    cost := data.cost
    imageURL := data.imageURL
    manufacturer := data.manufacturer }

end BasketItem

namespace OrdersScreen

def start : OrdersScreen := ⟨[], [], [], 0, []⟩

variable (self : OrdersScreen)

/-! ## What the table asks for -/

def getCountOfSection : ℕ := self.orders.length

def getCountOfRow (sectionIndex : ℕ) : ℕ :=
  (self.orders[sectionIndex]?.map fun order => order.items.length).getD 0

/-- There is no title where the index is out of range. -/
def getSectionTitle (sectionIndex : ℕ) : Option String :=
  self.orders[sectionIndex]?.map fun order =>
    "С " ++ order.date ++ " на " ++ toString order.countOfDay ++ " сут."

def getSectionFooter (sectionIndex : ℕ) : Option String :=
  self.orders[sectionIndex]?.map fun order => order.status

/-- The one place where the indices are looked at first. -/
def getItem (sectionIndex row : ℕ) : String × String × ℤ × String :=
  match self.orders[sectionIndex]?.bind fun order => order.items[row]? with
  | some item =>
      (item.name, toString item.cost ++ " руб./сут.", item.count, item.imageURL)
  | none => ("error", "error", 0, "")

/-! ## The handlers -/

def setTable (orders : List Order) : OrdersScreen :=
  let self := { self with orders := orders }
  { self with
    told := (List.range self.getCountOfSection).map self.getCountOfRow }

def requests (fill : ℕ) (orders : List Order) : List FillRequest :=
  orders.zipIdx.flatMap fun (order, indexOrder) =>
    order.items.zipIdx.map fun (item, indexItem) =>
      ⟨fill, indexOrder, indexItem, item.categoryID, item.dbItemID⟩

def fillItems : OrdersScreen :=
  { self with
    counts := self.counts ++
      [(self.orders.map fun order => (order.items.length : ℤ)).sum]
    inFlight := self.inFlight ++ requests self.counts.length self.orders }

def snapshot (orders : List Order) : OrdersScreen :=
  let self := { self with orders := orders }
  (if orders = [] then self.setTable self.orders else self).fillItems

def lineAt (orders : List Order) (indexOrder indexItem : ℕ) :
    Option BasketItem :=
  orders[indexOrder]?.bind fun order => order.items[indexItem]?

def write (orders : List Order) (indexOrder indexItem : ℕ)
    (data : PreviousItem) : List Order :=
  orders.modify indexOrder fun order =>
    { order with items := order.items.modify indexItem fun item => item.fill data }

/-- A completion of `fillPreviousItem`. It traps where there is no line at the
captured place. -/
def filled (r : FillRequest) : FillResult → Option OrdersScreen
  | .failure => some self
  | .success data =>
      (lineAt self.orders r.indexOrder r.indexItem).map fun _ =>
        let count := self.counts[r.fill]?.getD 0 - 1
        { self with
          orders := write self.orders r.indexOrder r.indexItem data
          counts := self.counts.set r.fill count
          blocks := if count = 0 then self.blocks + 1 else self.blocks }

def handle : OrdersEvent → Option OrdersScreen
  | .snapshot orders => some (self.snapshot orders)
  | .snapshotFailed => some self
  | .filled k result =>
      self.inFlight[k]?.bind fun r =>
        { self with inFlight := self.inFlight.eraseIdx k }.filled r result
  | .block =>
      if self.blocks = 0 then none
      else some ({ self with blocks := self.blocks - 1 }.setTable self.orders)
  | .headerAsked sectionIndex => (self.getSectionTitle sectionIndex).map fun _ => self
  | .footerAsked sectionIndex => (self.getSectionFooter sectionIndex).map fun _ => self
  | .cellAsked _ _ => some self

end OrdersScreen

/-! ## A load as the view sees it -/

/-- What the view is told of a load: `updateTable()` and `closeAlert()`, always
together, or `failure(error:)`. -/
inductive LoadEnd
  | table
  | failure
  deriving DecidableEq, Repr

/-- The screen after a snapshot, with the blocks queued by answers that were
failures, the answers so far, and what the view has been told. -/
structure OrdersLoad where
  screen : OrdersScreen
  failures : ℕ
  answers : List FillResult
  told : List LoadEnd
  deriving DecidableEq, Repr

/-- `filled k` is the answer to the `k`-th request in flight; the other two are
blocks on the main queue. -/
inductive LoadEvent
  | filled (k : ℕ) (result : FillResult)
  | tableBlock
  | failureBlock
  deriving DecidableEq, Repr

namespace OrdersLoad

def start (orders : List Order) : OrdersLoad where
  screen := OrdersScreen.start.snapshot orders
  failures := 0
  answers := []
  told := if orders = [] then [.table] else []

def handle (self : OrdersLoad) : LoadEvent → Option OrdersLoad
  | .filled k result =>
      (self.screen.handle (.filled k result)).map fun screen =>
        { self with
          screen := screen
          failures := match result with
            | .success _ => self.failures
            | .failure => self.failures + 1
          answers := self.answers ++ [result] }
  | .tableBlock =>
      (self.screen.handle .block).map fun screen =>
        { self with
          screen := screen
          told := self.told ++ [.table] }
  | .failureBlock =>
      if self.failures = 0 then none
      else some { self with
        failures := self.failures - 1
        told := self.told ++ [.failure] }

end OrdersLoad

end PhoRent
