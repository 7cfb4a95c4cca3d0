import PhoRent.App.BasketView
import PhoRent.App.Catalog
import PhoRent.App.PreviousOrders
import PhoRent.Functions.Callable

/-!
# The app and its backend

Everything at once: the documents, the calls of the two functions under way,
the writes of orders on their way, and on any number of devices the screens
that send them, the basket and the pages of the categories. What the listeners
are given are snapshots of the documents, and a snapshot may reach a screen
late, or after a later one.

A screen does not know whose it is. A request goes out under the user `Auth`
has at that moment, which is part of the event, and so a screen left over from
somebody else is covered too.
-/

namespace PhoRent

/-- A write of `putOrder` on its way, with the user it is for. -/
structure SentWrite where
  userID : String
  write : PutWrite

structure CategoryPage where
  category : String
  screen : CategoryScreen

/-- The snapshots are kept once taken: any screen may be given any of them. -/
structure World where
  store : Store ℤ
  calls : List (Call ℤ)
  writes : List SentWrite
  baskets : List BasketScreen
  pages : List CategoryPage
  basketSnapshots : List (List BasketItem)
  itemSnapshots : List (String × List Item)

/-- `basketRead` and `itemsRead` take a snapshot; `answered` and `written` are
answers of the backend. -/
inductive WorldEvent (Date : Type)
  | basketOpened
  | pageOpened (category : String)
  | basketRead (userID : String)
  | itemsRead (category : String) (documents : List QueryDocumentSnapshot)
  | basket (k : ℕ) (e : BasketScreenEvent Date) (currentUser : Option String)
  | page (k : ℕ) (e : CategoryEvent) (currentUser : Option String)
  | answered (i : ℕ) (t : Turn)
  | written (j : ℕ) (ok : Bool) (orderID : String)

namespace BasketScreen

variable {Date : Type}

/-- What a handler asks of the network service: only two of them do. -/
def requests (self : BasketScreen) :
    BasketScreenEvent Date → List BasketEffect
  | .removeTapped index =>
      ((self.presenter.removeFromBasket index).map Prod.snd).getD []
  | .orderTapped isConnectedToNetwork =>
      (self.presenter.putOrder isConnectedToNetwork).2
  | _ => []

end BasketScreen

namespace World

variable {Date : Type} (formatter : DateFormatter Date) (self : World)

def start (store : Store ℤ) : World := ⟨store, [], [], [], [], [], []⟩

/-- A handler has run: if it has not thrown, there is a call. -/
def handled : Handled ℤ → World
  | .threw _ => self
  | .returned _ call => { self with calls := self.calls ++ [call] }

def perform (currentUser : Option String) (self : World) :
    BasketEffect → World
  | .putOrder order =>
      { self with
        writes := self.writes ++
          (NetworkService.putOrder currentUser order).map
            (⟨currentUser.getD "", ·⟩) }
  | .removeFromBasket itemID dbItemID categoryID =>
      self.handled (deleteItemFromBasket
        (some ⟨.str itemID, .str categoryID, .str dbItemID⟩) currentUser)
  | _ => self

/-- An add goes out with the id of the item in the row. -/
def addItemInBasket (page : CategoryPage) (currentUser : Option String) :
    CategoryEvent → World
  | .addTapped row count true =>
      match page.screen.row row with
      | some item => self.handled (PhoRent.addItemInBasket
          (some ⟨.str item.ID, .str page.category, count⟩) currentUser)
      | none => self
  | _ => self

/-- The items a listener makes of the documents, if it calls its completion. -/
def itemsOf (documents : List QueryDocumentSnapshot) : List (List Item) :=
  (NetworkService.getItems (.ok documents)).filterMap fun
    | .ok items => items
    | .error _ => none

def handle : WorldEvent Date → Option World
  | .basketOpened => some { self with baskets := self.baskets ++ [.start] }
  | .pageOpened category =>
      some { self with pages := self.pages ++ [⟨category, .start⟩] }
  | .basketRead userID =>
      some { self with basketSnapshots := self.basketSnapshots ++
        [NetworkService.getOrder self.store userID] }
  | .itemsRead category documents =>
      some { self with itemSnapshots := self.itemSnapshots ++
        (itemsOf documents).map fun items => (category, items) }
  | .basket k e currentUser =>
      self.baskets[k]?.bind fun screen =>
        (screen.handle formatter e).map fun screen' =>
          (screen.requests e).foldl (perform currentUser)
            { self with baskets := self.baskets.set k screen' }
  | .page k e currentUser =>
      self.pages[k]?.bind fun page =>
        (page.screen.handle e).map fun screen' =>
          { self with
            pages := self.pages.set k { page with screen := screen' }
            }.addItemInBasket page currentUser e
  | .answered i t =>
      self.calls[i]?.map fun call =>
        let (store, call) := call.step t self.store
        { self with store := store, calls := self.calls.set i call }
  | .written j ok orderID =>
      self.writes[j]?.map fun x =>
        { self with
          store := if ok then x.write.apply x.userID orderID self.store
            else self.store
          writes := self.writes.eraseIdx j }

/-- The documents are some of the category's with a positive count, as
`whereField("count", isGreaterThan: 0)` asks for. -/
def Listed (category : String) (documents : List QueryDocumentSnapshot) :
    Prop :=
  ∀ document ∈ documents, ∃ item,
    self.store.items ⟨category, document.documentID⟩ = some item ∧
      0 < item.count ∧ document.data = item.data

/-- What can happen. A screen is only given snapshots that have been taken, a
stepper set to `minimumValue = 1` has no value below, and an id drawn for a new
document is new. -/
def Possible (w : World) : WorldEvent Date → Prop
  | .itemsRead category documents => w.Listed category documents
  | .basket _ (.snapshot items _) _ => items ∈ w.basketSnapshots
  | .page k (.snapshot items) _ => ∃ page, w.pages[k]? = some page ∧
      (page.category, items) ∈ w.itemSnapshots
  | .page _ (.addTapped _ count _) _ => 1 ≤ count
  | .answered _ t => t.Fresh w.store
  | .written _ _ orderID => ∀ u, w.store.orders.get (userKey u orderID) = none
  | _ => True

end World

end PhoRent
