import PhoRent.App.PreviousOrders
import PhoRent.Lib.Indexed
import PhoRent.Proofs.Copies
import PhoRent.Proofs.OrderHistory

/-!
# From the basket to the history

A basket line is decoded, ordered, read back and filled in again. Of the line
only the ids and the count take the way through the order document. All the
rest is read from the catalogue for a second time, with the same casts and the
same defaults as from the line, and the line was a copy of the catalogue.

The answers of the catalogue come in any order. Each one makes its line what it
is going to be, and leaves what the other lines are going to be alone.
-/

namespace PhoRent

open Machine Interleave NetworkService

/-! ## What is decoded of a line -/

structure LineDoc.Describes (d : LineDoc ℤ) (item : BasketItem) : Prop where
  categoryID : item.categoryID = d.categoryID
  dbItemID : item.dbItemID = d.itemID
  count : item.count = d.count
  name : ∀ name, d.name = some name → item.name = name
  cost : ∀ n, d.fields.lookup "cost" = some (.int n) → item.cost = n
  imageURL : ∀ url, d.fields.lookup "imageURL" = some (.string url) →
    item.imageURL = url
  manufacturer : ∀ name, d.fields.lookup "manufacturer" =
    some (.string name) → item.manufacturer = name

section Lookup

variable {item item' : ItemDoc ℤ} {d : LineDoc ℤ} {key : String}

theorem LineDoc.lookup_fields (d : LineDoc ℤ) (key : String)
    (hcount : key ≠ "count") (hitem : key ≠ "itemID")
    (hcategory : key ≠ "categoryID") (hname : key ≠ "name") :
    d.data.lookup key = d.fields.lookup key := by
  have hne : ∀ {k : String}, key ≠ k → (key == k) = false := fun h => by
    simpa using h
  cases hn : d.name <;>
    simp only [data, hn, Option.map_none, Option.map_some, Option.toList_none,
      Option.toList_some, List.cons_append, List.nil_append, List.append_nil,
      List.lookup_cons, hne hcount, hne hitem, hne hcategory, hne hname]

theorem LineDoc.describes_decode (d : LineDoc ℤ) (lineID : String) :
    d.Describes (d.decode lineID) := by
  refine ⟨rfl, rfl, rfl, fun name h => ?_, fun n h => ?_, fun url h => ?_,
    fun name h => ?_⟩
  · have hlookup : d.data.lookup "name" = some (.string name) := by
      rw [data, h]
      rfl
    rw [decode, BasketItem.init, hlookup]
    rfl
  · rw [decode, BasketItem.init, lookup_fields d "cost" (by decide)
      (by decide) (by decide) (by decide), h]
    rfl
  · rw [decode, BasketItem.init, lookup_fields d "imageURL" (by decide)
      (by decide) (by decide) (by decide), h]
    rfl
  · rw [decode, BasketItem.init, lookup_fields d "manufacturer" (by decide)
      (by decide) (by decide) (by decide), h]
    rfl

/-- But for the keys the functions set, a line has the item's fields. -/
theorem LineDoc.lookup_data (hcount : key ≠ "count") (hitem : key ≠ "itemID")
    (hcategory : key ≠ "categoryID") :
    d.data.lookup key = d.toItemDoc.data.lookup key := by
  have hne : ∀ {k : String}, key ≠ k → (key == k) = false := fun h => by
    simpa using h
  simp only [data, ItemDoc.data, List.cons_append, List.nil_append,
    List.lookup_cons, hne hcount, hne hitem, hne hcategory]

theorem ItemDoc.lookup_data (h : item.copied = item'.copied)
    (hcount : key ≠ "count") :
    item.data.lookup key = item'.data.lookup key := by
  obtain ⟨hname, hfields⟩ := Prod.mk.inj h
  have hne : (key == "count") = false := by simpa using hcount
  simp only [data, List.lookup_cons, hne, hname, hfields]

/-- The item of the order, filled in from the document the line is a copy of,
is the item of the basket. Only the id of the line is gone. -/
theorem LineDoc.fill_decode (h : item.copied = d.toItemDoc.copied)
    (lineID : String) :
    (BasketItem.init (OrderElem.ofItem (d.decode lineID)).data "").fill
        (.ofDocument (some item.data)) =
      { d.decode lineID with itemID := "" } := by
  have hlookup : ∀ key, key ≠ "count" → key ≠ "itemID" → key ≠ "categoryID" →
      item.data.lookup key = d.data.lookup key := fun key h₁ h₂ h₃ => by
    rw [LineDoc.lookup_data h₁ h₂ h₃, ItemDoc.lookup_data h h₁]
  rw [OrderElem.init_data]
  simp only [BasketItem.fill, PreviousItem.ofDocument, field, Option.bind_some,
    hlookup "name" (by decide) (by decide) (by decide),
    hlookup "cost" (by decide) (by decide) (by decide),
    hlookup "imageURL" (by decide) (by decide) (by decide),
    hlookup "manufacturer" (by decide) (by decide) (by decide)]
  rfl

end Lookup

/-! ## What the catalogue answers -/

theorem Store.getDocument_eq (s : Store ℤ) (categoryID itemID : String) :
    s.getDocument categoryID itemID =
      (refOf categoryID itemID).map fun ref =>
        (s.items ref).map ItemDoc.data := by
  rw [getDocument, refOf]
  cases docPath (.str categoryID) with
  | none => rfl
  | some category => cases docPath (.str itemID) <;> rfl

theorem PreviousItem.ofDocument_congr {item item' : ItemDoc ℤ}
    (h : item.copied = item'.copied) :
    ofDocument (some item.data) = ofDocument (some item'.data) := by
  simp only [ofDocument, field, Option.bind_some,
    ItemDoc.lookup_data h (show "name" ≠ "count" by decide),
    ItemDoc.lookup_data h (show "cost" ≠ "count" by decide),
    ItemDoc.lookup_data h (show "imageURL" ≠ "count" by decide),
    ItemDoc.lookup_data h (show "manufacturer" ≠ "count" by decide)]

theorem previousItem_congr {s s' : Store ℤ} (h : s.catalog = s'.catalog)
    (categoryID itemID : String) :
    previousItem s categoryID itemID = previousItem s' categoryID itemID := by
  rw [previousItem, previousItem, Store.getDocument_eq, Store.getDocument_eq,
    Option.map_map, Option.map_map]
  refine Option.map_congr fun ref _ => ?_
  have href := congrFun h ref
  rw [Store.catalog, Store.catalog] at href
  rw [Function.comp_apply, Function.comp_apply]
  cases hi : s.items ref with
  | none =>
      rw [hi, Option.map_none, eq_comm, Option.map_eq_none_iff] at href
      rw [href]
  | some item =>
      rw [hi, Option.map_some, eq_comm, Option.map_eq_some_iff] at href
      obtain ⟨item', hi', hcopied⟩ := href
      rw [hi']
      exact PreviousItem.ofDocument_congr hcopied.symm

/-- The item once it has been filled in from the catalogue of `s`. -/
def BasketItem.filledFrom (s : Store ℤ) (item : BasketItem) : BasketItem :=
  match previousItem s item.categoryID item.dbItemID with
  | some data => item.fill data
  | none => item

def Order.filledFrom (s : Store ℤ) (order : Order) : Order :=
  { order with items := order.items.map (BasketItem.filledFrom s) }

section FilledFrom

variable {s : Store ℤ} {item : BasketItem} {data data' : PreviousItem}

theorem BasketItem.filledFrom_of_some
    (h : previousItem s item.categoryID item.dbItemID = some data) :
    item.filledFrom s = item.fill data := by
  rw [filledFrom, h]

/-- What has been filled in before makes no difference. -/
theorem BasketItem.filledFrom_fill
    (h : previousItem s item.categoryID item.dbItemID = some data) :
    (item.fill data').filledFrom s = item.filledFrom s := by
  have hfilled : previousItem s (item.fill data').categoryID
      (item.fill data').dbItemID = some data := h
  rw [filledFrom_of_some h, filledFrom_of_some hfilled]
  rfl

/-- A line that is a copy of the catalogue comes back as it was. -/
theorem LineDoc.filledFrom_decode {d : LineDoc ℤ} (h : s.Copied d)
    (lineID : String) :
    (BasketItem.init (OrderElem.ofItem (d.decode lineID)).data "").filledFrom
        s = { d.decode lineID with itemID := "" } := by
  obtain ⟨ref, href, hcatalog⟩ := h
  obtain ⟨item, hi, hcopied⟩ := Option.map_eq_some_iff.mp hcatalog
  have hprevious : previousItem s d.categoryID d.itemID =
      some (.ofDocument (some item.data)) := by
    rw [previousItem, Store.getDocument_eq, href, Option.map_some, hi]
    rfl
  rw [BasketItem.filledFrom_of_some, LineDoc.fill_decode hcopied]
  exact hprevious

end FilledFrom

/-! ## The answers come in -/

namespace OrdersScreen

/-- The requests in flight are answered from catalogues like that of `s₀`, and
there is no snapshot. -/
def Filling (s₀ : Store ℤ) (s : OrdersScreen) : OrdersEvent → Prop
  | .snapshot _ => False
  | .filled k result => ∃ r ∈ s.inFlight[k]?, ∃ t : Store ℤ,
      t.catalog = s₀.catalog ∧
        ∃ data ∈ previousItem t r.categoryID r.itemID, result = .success data
  | _ => True

/-- Every line is what it is going to be, or has its answer still to come, and
all orders are going to be what `orders₀` was. -/
structure Underway (s₀ : Store ℤ) (orders₀ : List Order) (s : OrdersScreen) :
    Prop where
  fitting : s.Fitting
  goal : s.orders.map (Order.filledFrom s₀) =
    orders₀.map (Order.filledFrom s₀)
  rest : ∀ i j item, lineAt s.orders i j = some item →
    (∃ r ∈ s.inFlight, r.indexOrder = i ∧ r.indexItem = j) ∨
      item.filledFrom s₀ = item

section Steps

variable {s₀ : Store ℤ} {orders₀ : List Order} {s s' : OrdersScreen}

theorem map_filledFrom_write {orders : List Order} {i j : ℕ}
    {data : PreviousItem} (h : ∀ item ∈ lineAt orders i j,
      (previousItem s₀ item.categoryID item.dbItemID).isSome) :
    (write orders i j data).map (Order.filledFrom s₀) =
      orders.map (Order.filledFrom s₀) := by
  refine Indexed.map_modify fun order ho => ?_
  refine congrArg (fun items => { order with items := items })
    (Indexed.map_modify fun item hj => ?_)
  have hline : lineAt orders i j = some item := by
    rw [lineAt, ho, Option.bind_some, hj]
  obtain ⟨data', hdata'⟩ := Option.isSome_iff_exists.mp (h item hline)
  exact BasketItem.filledFrom_fill hdata'

theorem exists_request {orders : List Order} {i j : ℕ} {item : BasketItem}
    (h : lineAt orders i j = some item) (fill : ℕ) :
    ∃ r ∈ requests fill orders, r.indexOrder = i ∧ r.indexItem = j := by
  obtain ⟨order, ho, hj⟩ := Option.bind_eq_some_iff.mp h
  refine ⟨⟨fill, i, j, item.categoryID, item.dbItemID⟩, ?_, rfl, rfl⟩
  rw [requests, List.mem_flatMap]
  exact ⟨(order, i), List.mem_zipIdx_iff_getElem?.mpr ho,
    List.mem_map.mpr ⟨(item, j), List.mem_zipIdx_iff_getElem?.mpr hj, rfl⟩⟩

theorem orders_snapshot (s : OrdersScreen) (orders : List Order) :
    (s.snapshot orders).orders = orders := by
  rw [snapshot, fillItems]
  simp only
  split <;> rfl

theorem inFlight_snapshot (s : OrdersScreen) (orders : List Order) :
    ∃ fill, (s.snapshot orders).inFlight =
      s.inFlight ++ requests fill orders := by
  rw [snapshot, fillItems]
  simp only
  split <;> exact ⟨_, rfl⟩

theorem underway_snapshot (hidle : s.inFlight = []) (orders : List Order) :
    (s.snapshot orders).Underway s₀ orders := by
  have hnone : s.Undisturbed (.snapshot orders) := by
    intro r hr
    rw [hidle] at hr
    cases hr
  refine ⟨fitting_snapshot hnone, by rw [orders_snapshot],
    fun i j item hline => Or.inl ?_⟩
  rw [orders_snapshot] at hline
  obtain ⟨fill, hflight⟩ := inFlight_snapshot s orders
  rw [hflight, hidle, List.nil_append]
  exact exists_request hline fill

theorem handle_filled {k : ℕ} {r : FillRequest} {item : BasketItem}
    (hr : s.inFlight[k]? = some r)
    (hline : lineAt s.orders r.indexOrder r.indexItem = some item)
    (data : PreviousItem) :
    ∃ s', s.handle (.filled k (.success data)) = some s' ∧
      s'.inFlight = s.inFlight.eraseIdx k ∧
      s'.orders = write s.orders r.indexOrder r.indexItem data := by
  simp only [OrdersScreen.handle, hr, Option.bind_some, OrdersScreen.filled,
    hline, Option.map_some]
  exact ⟨_, rfl, rfl, rfl⟩

/-- An answer makes its line what it is going to be. -/
theorem Underway.filled (h : s.Underway s₀ orders₀) {k : ℕ}
    {result : FillResult} (hok : s.Filling s₀ (.filled k result)) :
    ∃ s', s.handle (.filled k result) = some s' ∧ s'.Underway s₀ orders₀ := by
  obtain ⟨r, hr, t, ht, data, hdata, rfl⟩ := hok
  obtain ⟨item, hline, hcategory, hitem⟩ :=
    h.fitting r (List.mem_of_getElem? hr)
  have hprevious : previousItem s₀ item.categoryID item.dbItemID =
      some data := by
    rw [hcategory, hitem, ← previousItem_congr ht]
    exact hdata
  obtain ⟨s', hs', hflight, horders⟩ := handle_filled hr hline data
  refine ⟨s', hs', h.fitting.handle (e := .filled k (.success data)) trivial hs',
    ?_, fun i j item' hline' => ?_⟩
  · rw [horders, map_filledFrom_write, h.goal]
    intro item' hline'
    obtain rfl : item = item' := Option.some.inj (hline.symm.trans hline')
    rw [hprevious]
    rfl
  · rw [horders, lineAt_write] at hline'
    obtain ⟨old, hold, hwritten⟩ := Option.map_eq_some_iff.mp hline'
    rw [hflight]
    split at hwritten
    · next hplace =>
        obtain ⟨rfl, rfl⟩ := hplace
        obtain rfl : item = old := Option.some.inj (hline.symm.trans hold)
        rw [← hwritten, BasketItem.filledFrom_fill hprevious,
          BasketItem.filledFrom_of_some hprevious]
        exact Or.inr rfl
    · next hplace =>
        subst hwritten
        refine (h.rest i j old hold).imp_left fun ⟨r', hr', hi, hj⟩ => ?_
        refine ⟨r', ?_, hi, hj⟩
        -- a request for another place is another request
        obtain ⟨k', hk'⟩ := List.mem_iff_getElem?.mp hr'
        refine List.mem_eraseIdx_iff_getElem?.mpr ⟨k', ?_, hk'⟩
        rintro rfl
        obtain rfl : r = r' := Option.some.inj (hr.symm.trans hk')
        exact hplace ⟨hi.symm, hj.symm⟩

theorem Underway.handle {e : OrdersEvent} (h : s.Underway s₀ orders₀)
    (hok : s.Filling s₀ e) (hs : s.handle e = some s') :
    s'.Underway s₀ orders₀ := by
  cases e with
  | snapshot orders => exact hok.elim
  | filled k result =>
      obtain ⟨s'', hs'', h'⟩ := h.filled hok
      obtain rfl := Option.some.inj (hs.symm.trans hs'')
      exact h'
  | block =>
      simp only [OrdersScreen.handle] at hs
      split at hs
      · cases hs
      · obtain rfl := Option.some.inj hs
        exact ⟨h.fitting, h.goal, h.rest⟩
  | headerAsked sectionIndex | footerAsked sectionIndex =>
      obtain ⟨_, -, rfl⟩ := Option.map_eq_some_iff.mp hs
      exact h
  | snapshotFailed | cellAsked =>
      obtain rfl := Option.some.inj hs
      exact h

/-- When all answers are in, every order is what it was going to be. -/
theorem Underway.orders_eq (h : s.Underway s₀ orders₀)
    (hdone : s.inFlight = []) :
    s.orders = orders₀.map (Order.filledFrom s₀) := by
  rw [← h.goal]
  refine (List.map_id _).symm.trans (List.map_congr_left fun order ho => ?_)
  obtain ⟨i, hi⟩ := List.mem_iff_getElem?.mp ho
  have hitems : order.items.map (BasketItem.filledFrom s₀) = order.items := by
    refine (List.map_congr_left fun item hitem => ?_).trans (List.map_id _)
    obtain ⟨j, hj⟩ := List.mem_iff_getElem?.mp hitem
    have hline : lineAt s.orders i j = some item := by
      rw [lineAt, hi, Option.bind_some, hj]
    refine (h.rest i j item hline).resolve_left ?_
    rintro ⟨r, hr, -⟩
    rw [hdone] at hr
    cases hr
  rw [id, Order.filledFrom, hitems]

end Steps

end OrdersScreen

/-! ## The whole way -/

theorem Order.filledFrom_ofOrder {s : Store ℤ} {uid : String}
    (h : ∀ l d, s.line uid l = some d → s.Copied d) {order : Order}
    (hitems : order.items = getOrder s uid) :
    (Order.ofDocument (OrderDoc.ofOrder order).data).filledFrom s =
      { order with
        orderID := ""
        status := "В работе"
        items := order.items.map fun item => { item with itemID := "" } } := by
  have hmap : (order.items.map fun item =>
      (BasketItem.init (OrderElem.ofItem item).data "").filledFrom s) =
        order.items.map fun item => { item with itemID := "" } := by
    refine List.map_congr_left fun item hitem => ?_
    rw [hitems, mem_getOrder] at hitem
    obtain ⟨l, d, hd, rfl⟩ := hitem
    exact LineDoc.filledFrom_decode (h l d hd) l
  rw [Order.ofDocument_data, Order.filledFrom]
  simp only [OrderDoc.ofOrder, List.map_map, Function.comp_def, hmap]

/-- The items of a basket, whatever their lines are called, are what the
documents say, one by one. -/
theorem describes_getOrder (s : Store ℤ) (uid : String) :
    List.Forall₂ (fun e item => e.2.Describes item) (s.lines uid)
      ((getOrder s uid).map fun item => { item with itemID := "" }) := by
  rw [getOrder, List.map_map, List.forall₂_map_right_iff, List.forall₂_same]
  intro e _
  obtain ⟨hcategory, hitem, hcount, hname, hcost, hurl, hmaker⟩ :=
    e.2.describes_decode e.1
  exact ⟨hcategory, hitem, hcount, hname, hcost, hurl, hmaker⟩

/-- Once the writes have been answered, the document is among the user's
orders. -/
theorem exists_ordersOf (s : Store ℤ) {uid : String} (orderID : String)
    {order : Order} {ok : PutWrite → Bool} {writes : List PutWrite}
    (hwrites : writes.Perm (putOrder (some uid) order))
    (hok : ok (.addDocument (.ofOrder order)) = true) :
    ∃ p : ℕ, ((answerAll uid orderID ok s writes).ordersOf uid)[p]? =
      some (orderID, .ofOrder order) := by
  have hget : (answerAll uid orderID ok s writes).orders.get
      (userKey uid orderID) = some (.ofOrder order) := by
    rw [orders_answerAll (.ofOrder order), if_pos, Keyed.Coll.get_put_self]
    · exact ⟨hwrites.mem_iff.mpr (mem_putOrder.mpr (Or.inl rfl)), hok⟩
    · intro data hdata
      rcases mem_putOrder.mp (hwrites.mem_iff.mp hdata) with h | ⟨item, -, h⟩
      · exact PutWrite.addDocument.inj h
      · cases h
  exact List.mem_iff_getElem?.mp (Store.mem_ordersOf hget)

/-- A basket of lines made by adds comes back from the history as it was
ordered. `c` is any point of any run that began with the basket empty; the
order is made of the basket as the app decodes it and its writes are answered
in any order; the screen, with nothing in flight, gets the snapshot, and the
answers of the catalogue come in any order. No answer traps. When all are in,
the order stands where its document does, with the same date, the same days
and the same lines in the same order, each as the document of the basket line
says. -/
theorem order_round_trip {ι : Type} [DecidableEq ι] {s₀ : Store ℤ}
    {uid : String} (h₀ : ∀ l, s₀.line uid l = none) {calls : ι → Call ℤ}
    (hcalls : ∀ i, (calls i).OfHandler) {c : Config ι (Store ℤ) (Call ℤ)}
    (hrun : Interleave.Run (fun _ => Call.Answered) ⟨s₀, calls⟩ c)
    {order : Order} (hitems : order.items = getOrder c.shared uid)
    {orderID : String} {ok : PutWrite → Bool} {writes : List PutWrite}
    (hwrites : writes.Perm (putOrder (some uid) order))
    (hok : ok (.addDocument (.ofOrder order)) = true)
    {screen screen' : OrdersScreen} (hidle : screen.inFlight = [])
    (hfill : Machine.Run OrdersScreen.handle (OrdersScreen.Filling c.shared)
      (screen.snapshot (getPreviousOrders
        (answerAll uid orderID ok c.shared writes) uid)) screen') :
    (∀ k result, screen'.Filling c.shared (.filled k result) →
      screen'.handle (.filled k result) ≠ none) ∧
    (screen'.inFlight = [] → ∃ (p : ℕ) (back : Order),
      (((answerAll uid orderID ok c.shared writes).ordersOf uid)[p]?.map
        Prod.fst) = some orderID ∧
      screen'.orders[p]? = some back ∧
      back = { order with
        orderID := ""
        status := "В работе"
        items := order.items.map fun item => { item with itemID := "" } } ∧
      List.Forall₂ (fun e item => e.2.Describes item) (c.shared.lines uid)
        back.items) := by
  have hcopies := Store.copiesOf_of_run h₀ hcalls hrun
  have hunderway := hfill.invariant
    (I := OrdersScreen.Underway c.shared _)
    (fun _ _ _ h hok hs => h.handle hok hs)
    (OrdersScreen.underway_snapshot hidle _)
  refine ⟨fun k result hresult => ?_, fun hdone => ?_⟩
  · obtain ⟨s', hs', -⟩ := hunderway.filled hresult
    rw [hs']
    exact Option.some_ne_none s'
  · obtain ⟨p, hp⟩ := exists_ordersOf c.shared orderID hwrites hok
    refine ⟨p, _, by rw [hp, Option.map_some], ?_, rfl,
      hitems ▸ describes_getOrder c.shared uid⟩
    rw [hunderway.orders_eq hdone, getPreviousOrders, List.getElem?_map,
      List.getElem?_map, hp, Option.map_some, Option.map_some,
      Order.filledFrom_ofOrder (fun l d hd => ?_) hitems]
    rw [Store.Copied, hcopies.catalog]
    exact hcopies.lines l d hd

def pricedCamera : Store ℤ where
  items := fun ref =>
    if ref = camera then
      some ⟨some "Camera", 3, [("cost", .int 500),
        ("imageURL", .string "camera.png"), ("manufacturer", .string "Canon")]⟩
    else none
  basket := .empty
  orders := .empty

/-- Ann adds two cameras and orders them for three days. -/
theorem order_round_trip_camera :
    ∃ (c : Config Unit (Store ℤ) (Call ℤ)) (screen : OrdersScreen)
      (p : ℕ) (back : Order),
      Interleave.Run (fun _ => Call.Answered)
        ⟨pricedCamera, fun _ =>
          .add (.getItem ⟨"cam", "photo", camera, 2, some "ann"⟩)⟩ c ∧
      Machine.Run OrdersScreen.handle (OrdersScreen.Filling c.shared)
        (OrdersScreen.start.snapshot (getPreviousOrders
          (answerAll "ann" "o" (fun _ => true) c.shared
            (putOrder (some "ann") ⟨"", "01.06.2020", 3, "",
              getOrder c.shared "ann"⟩).reverse) "ann")) screen ∧
      screen.inFlight = [] ∧
      screen.orders[p]? = some back ∧
      back.date = "01.06.2020" ∧ back.countOfDay = 3 ∧
      List.Forall₂ (fun e item => e.2.Describes item)
        (c.shared.lines "ann") back.items ∧
      back.items =
        [⟨"", "Camera", 500, "camera.png", "Canon", 2, "photo", "cam"⟩] := by
  have hcall : Call.OfHandler (V := ℤ)
      (.add (.getItem ⟨"cam", "photo", camera, 2, some "ann"⟩)) :=
    .add ⟨.str "cam", .str "photo", 2⟩ (some "ann") rfl
  let stored : Order := ⟨"", "01.06.2020", 3, "В работе",
    [⟨"", "", 1000, "", "", 2, "photo", "cam"⟩]⟩
  let data : PreviousItem := ⟨"Camera", 500, "camera.png", "Canon"⟩
  obtain ⟨c, hrun, hbasket, hdata, hstored⟩ :
      ∃ c, Interleave.Run (fun _ => Call.Answered)
        ⟨pricedCamera, fun _ : Unit =>
          .add (.getItem ⟨"cam", "photo", camera, 2, some "ann"⟩)⟩ c ∧
      getOrder c.shared "ann" =
        [⟨"l", "Camera", 500, "camera.png", "Canon", 2, "photo", "cam"⟩] ∧
      previousItem c.shared "photo" "cam" = some data ∧
      getPreviousOrders (answerAll "ann" "o" (fun _ => true) c.shared
        (putOrder (some "ann") ⟨"", "01.06.2020", 3, "",
          getOrder c.shared "ann"⟩).reverse) "ann" = [stored] :=
    Interleave.exists_run_of_play (fun _ => Call.answer?)
      (fun _ _ _ _ _ _ => Call.answered_of_answer?)
      [((), ⟨true, "", 0⟩), ((), ⟨true, "", 0⟩), ((), ⟨true, "", 0⟩),
        ((), ⟨true, "l", 0⟩)]
      (by decide +kernel)
  let e : OrdersEvent := .filled 0 (.success data)
  obtain ⟨screen, hscreen, hdone⟩ : ∃ screen,
      (OrdersScreen.start.snapshot [stored]).handle e = some screen ∧
        screen.inFlight = [] := ⟨_, rfl, rfl⟩
  have hfill : Machine.Run OrdersScreen.handle
      (OrdersScreen.Filling c.shared) (OrdersScreen.start.snapshot [stored])
      screen :=
    .single ⟨e, ⟨⟨0, 0, 0, "photo", "cam"⟩, rfl, c.shared, rfl, data, hdata,
      rfl⟩, hscreen⟩
  rw [← hstored] at hfill
  obtain ⟨-, hback⟩ := order_round_trip (fun _ => rfl) (fun _ => hcall) hrun
    rfl (List.reverse_perm _) rfl rfl hfill
  obtain ⟨p, back, -, hp, rfl, hlines⟩ := hback hdone
  exact ⟨c, screen, p, _, hrun, hfill, hdone, hp, rfl, rfl, hlines, by
    rw [hbasket]; rfl⟩

end PhoRent
