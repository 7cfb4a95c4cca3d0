import PhoRent.App.BasketItem
import PhoRent.Store.Units

/-!
# `NetworkService`: the basket and the order

The client reads the basket through a listener and places an order by writing
to Firestore itself: one order document, and a delete for each line, all sent
off together and answered in any order. The completion is called with
"success" for the order document, and with the error of whatever fails.
-/

namespace PhoRent

inductive NetResult
  | success (message : String)
  | failure
  deriving DecidableEq, Repr

inductive PutWrite
  | addDocument (data : OrderDoc)
  | delete (itemID : String)
  deriving DecidableEq, Repr

/-- The element `newItem` of the order document for an item. -/
def OrderElem.ofItem (item : BasketItem) : OrderElem where
  categoryID := item.categoryID
  itemID := item.dbItemID
  count := item.count

def OrderDoc.ofOrder (order : Order) : OrderDoc where
  items := order.items.map .ofItem
  status := "В работе"
  startDate := order.date
  countOfDay := order.countOfDay

namespace NetworkService

/-- `getOrder`: what the listener delivers for a basket. -/
def getOrder (s : Store ℤ) (userID : String) : List BasketItem :=
  (s.lines userID).map fun e => e.2.decode e.1

/-- `putOrder`: the writes it sends, none without a signed-in user. -/
def putOrder (userID : Option String) (order : Order) : List PutWrite :=
  match userID with
  | none => []
  | some _ =>
      .addDocument (.ofOrder order) ::
        order.items.map fun item => .delete item.itemID

/-- What the completion of `putOrder` is called with once a write has been
answered, if it is called at all. -/
def putOrderCompletion (ok : Bool) : PutWrite → Option NetResult
  | .addDocument _ =>
      some (if ok then .success "success write document" else .failure)
  | .delete _ => if ok then none else some .failure

theorem mem_putOrder {userID : String} {order : Order} {w : PutWrite} :
    w ∈ putOrder (some userID) order ↔ w = .addDocument (.ofOrder order) ∨
      ∃ item ∈ order.items, w = .delete item.itemID := by
  simp [putOrder, eq_comm]

end NetworkService

/-- A write carried out; `addDocument` draws the id of the document. -/
def PutWrite.apply {V : Type} (userID orderID : String) (s : Store V) :
    PutWrite → Store V
  | .addDocument data => s.setOrder userID orderID data
  | .delete itemID => s.deleteLine userID itemID

section Apply

variable {V : Type} {userID orderID : String}

@[simp] theorem PutWrite.items_apply (s : Store V) (w : PutWrite) :
    (w.apply userID orderID s).items = s.items := by
  cases w <;> rfl

theorem PutWrite.line_apply (s : Store V) (w : PutWrite) (l : String) :
    (w.apply userID orderID s).line userID l =
      if w = .delete l then none else s.line userID l := by
  cases w with
  | addDocument data => rw [if_neg (by simp)]; rfl
  | delete itemID =>
      rw [PutWrite.apply, Store.line_deleteLine]
      refine if_congr ?_ rfl rfl
      simp [eq_comm]

end Apply

/-- The writes are answered one after the other. A write refused leaves the
store as it is. -/
def answerAll {V : Type} (userID orderID : String) (ok : PutWrite → Bool)
    (s : Store V) : List PutWrite → Store V
  | [] => s
  | w :: rest =>
      answerAll userID orderID ok
        (if ok w then w.apply userID orderID s else s) rest

inductive PutOrderActs {V : Type} (userID : String) (s : Store V) :
    List PutWrite → Store V → List PutWrite → Prop
  | apply {pending : List PutWrite} (w : PutWrite) (orderID : String)
      (hw : w ∈ pending)
      (hfresh : s.orders.get (userKey userID orderID) = none) :
      PutOrderActs userID s pending (w.apply userID orderID s)
        (pending.erase w)

section AnswerAll

variable {V : Type} {userID orderID : String} {ok : PutWrite → Bool}

@[simp] theorem items_answerAll (ws : List PutWrite) (s : Store V) :
    (answerAll userID orderID ok s ws).items = s.items := by
  induction ws generalizing s with
  | nil => rfl
  | cons w rest ih =>
      rw [answerAll, ih]
      split
      · exact PutWrite.items_apply s w
      · rfl

/-- A line is gone if and only if its delete has been carried out. -/
theorem line_answerAll (ws : List PutWrite) (s : Store V) (l : String) :
    (answerAll userID orderID ok s ws).line userID l =
      if .delete l ∈ ws ∧ ok (.delete l) = true then none
      else s.line userID l := by
  induction ws generalizing s with
  | nil => simp [answerAll]
  | cons w rest ih =>
      rw [answerAll, ih]
      by_cases hw : w = .delete l
      · subst hw
        by_cases hok : ok (.delete l) = true
        · simp [hok, PutWrite.line_apply]
        · simp [hok]
      · have hmem : PutWrite.delete l ∈ w :: rest ↔ .delete l ∈ rest := by
          simp [Ne.symm hw]
        simp only [hmem]
        congr 1
        split
        · rw [PutWrite.line_apply, if_neg hw]
        · rfl

theorem line_answerAll_ne {u : String} (hu : u ≠ userID) (ws : List PutWrite)
    (s : Store V) (l : String) :
    (answerAll userID orderID ok s ws).line u l = s.line u l := by
  induction ws generalizing s with
  | nil => rfl
  | cons w rest ih =>
      rw [answerAll, ih]
      split
      · cases w with
        | addDocument data => rfl
        | delete itemID =>
            rw [PutWrite.apply, Store.line_deleteLine, if_neg fun h => hu h.1]
      · rfl

theorem orders_answerAll (data : OrderDoc) (ws : List PutWrite) (s : Store V)
    (hdata : ∀ data', .addDocument data' ∈ ws → data' = data) :
    (answerAll userID orderID ok s ws).orders =
      if .addDocument data ∈ ws ∧ ok (.addDocument data) = true
      then s.orders.put (userKey userID orderID) data else s.orders := by
  induction ws generalizing s with
  | nil => simp [answerAll]
  | cons w rest ih =>
      rw [answerAll, ih _ fun d hd => hdata d (List.mem_cons_of_mem _ hd)]
      cases w with
      | addDocument data' =>
          obtain rfl := hdata data' (by simp)
          by_cases hok : ok (.addDocument data') = true
          · simp only [hok, if_true, PutWrite.apply, Store.setOrder, and_true,
              List.mem_cons_self]
            rw [Keyed.Coll.put_of_get (Keyed.Coll.get_put_self ..), ite_self]
          · simp [hok]
      | delete itemID =>
          have hmem : PutWrite.addDocument data ∈ .delete itemID :: rest ↔
              .addDocument data ∈ rest := by simp
          simp only [hmem]
          split <;> split <;> rfl

end AnswerAll

/-! ## Baskets as the client sees them -/

section GetOrder

open NetworkService

variable {s : Store ℤ} {userID : String} {item : BasketItem}

theorem mem_getOrder : item ∈ getOrder s userID ↔
    ∃ l d, s.line userID l = some d ∧ d.decode l = item := by
  rw [getOrder, List.mem_map]
  constructor
  · intro hex
    obtain ⟨⟨l, d⟩, hm, rfl⟩ := hex
    exact ⟨l, d, Store.mem_lines.mp hm, rfl⟩
  · intro hex
    obtain ⟨l, d, hl, rfl⟩ := hex
    exact ⟨(l, d), Store.mem_lines.mpr hl, rfl⟩

theorem getOrder_nodup (s : Store ℤ) (userID : String) :
    ((getOrder s userID).map BasketItem.itemID).Nodup := by
  rw [getOrder, List.map_map]
  exact s.lines_nodup userID

theorem units_ofOrder {order : Order}
    (h : order.items.Perm (getOrder s userID)) (ref : ItemRef) :
    (OrderDoc.ofOrder order).units ref =
      s.held (Store.linesOf userID ref) := by
  have hperm := (h.map OrderElem.ofItem).map
    fun e => if e.ref = ref then e.count else 0
  rw [OrderDoc.units, OrderDoc.ofOrder, hperm.sum_eq, getOrder, List.map_map,
    List.map_map, Store.lines, List.map_map]
  refine (Keyed.Coll.sum_filter_docs
    (fun _ d => if LineDoc.ref d = ref then d.count else 0)
    (fun k => (ofLex k).1 = userID) s.basket).trans ?_
  refine congrArg (fun f => Keyed.Coll.total f s.basket) ?_
  funext k d
  by_cases hu : (ofLex k).1 = userID <;> by_cases hr : d.ref = ref <;>
    simp [Store.linesOf, hu, hr]

end GetOrder

end PhoRent
