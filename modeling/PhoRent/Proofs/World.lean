import PhoRent.Proofs.CatalogAnswer
import PhoRent.Proofs.RoundTrip
import PhoRent.Proofs.Screens
import PhoRent.Proofs.Signs

/-!
# Whatever happens

The screens, the functions and the database feed each other. A line is a copy
of the catalogue, a snapshot is read of the lines, a screen holds what a
snapshot has brought, and sends it back in an order or asks for a removal with
its ids. No link of this is checked by the code: no rules say what an order
document has to look like. It holds because every link keeps it, and it is one
invariant of the whole system.

A snapshot may be out of date, and a count on display usually is. The rest
cannot be, because the catalogue but for its counts never changes.
-/

namespace PhoRent

open Machine NetworkService

open BasketScreen (plainDates)

/-! ## What is said of an item -/

/-- The ids lead to a stock document, and the item says what is in it. -/
structure Store.Describes (s : Store ℤ) (item : BasketItem) : Prop where
  found : ∃ ref, refOf item.categoryID item.dbItemID = some ref ∧
    (s.items ref).isSome
  data : item.filledFrom s = item
  count : 1 ≤ item.count

/-- The item is one of the category, and says what is in its document, but
for the count. -/
def Store.Offers (s : Store ℤ) (categoryID : String) (item : Item) : Prop :=
  ∃ doc, s.items ⟨categoryID, item.ID⟩ = some doc ∧
    Item.Shows ⟨item.ID, doc.data⟩ { item with count := doc.count }

structure OrderDoc.Proper {Date : Type} (formatter : DateFormatter Date)
    (s : Store ℤ) (d : OrderDoc) : Prop where
  nonempty : d.items ≠ []
  items : ∀ e ∈ d.items, 1 ≤ e.count ∧
    ∃ ref, refOf e.categoryID e.itemID = some ref ∧ (s.items ref).isSome
  days : 1 ≤ d.countOfDay ∧ d.countOfDay ≤ 30
  date : d.startDate ∈ Set.range formatter.string
  status : d.status = "В работе"

section Catalogue

variable {s s' : Store ℤ} {Date : Type} {formatter : DateFormatter Date}

theorem Store.isSome_congr (h : s.catalog = s'.catalog) (ref : ItemRef) :
    (s.items ref).isSome = (s'.items ref).isSome := by
  have href := congrArg Option.isSome (congrFun h ref)
  rwa [catalog, catalog, Option.isSome_map, Option.isSome_map] at href

theorem Store.Describes.congr {item : BasketItem}
    (hs : s.catalog = s'.catalog) (h : s.Describes item) :
    s'.Describes item := by
  obtain ⟨ref, href, hsome⟩ := h.found
  refine ⟨⟨ref, href, by rw [← isSome_congr hs]; exact hsome⟩, ?_, h.count⟩
  rw [BasketItem.filledFrom, ← previousItem_congr hs]
  exact h.data

theorem Store.Offers.congr {categoryID : String} {item : Item}
    (hs : s.catalog = s'.catalog) (h : s.Offers categoryID item) :
    s'.Offers categoryID item := by
  obtain ⟨doc, hdoc, hname, hcost, hmaker, himage, -, -⟩ := h
  have hcopied := congrFun hs ⟨categoryID, item.ID⟩
  rw [catalog, hdoc, catalog, Option.map_some, eq_comm,
    Option.map_eq_some_iff] at hcopied
  obtain ⟨doc', hdoc', hcopied⟩ := hcopied
  have hlookup : ∀ key, key ≠ "count" →
      doc'.data.lookup key = doc.data.lookup key :=
    fun key hkey => ItemDoc.lookup_data hcopied hkey
  simp only [QueryDocumentSnapshot.get, field, Option.bind_some]
    at hname hcost hmaker himage
  refine ⟨doc', hdoc', ?_⟩
  simp only [Item.Shows, QueryDocumentSnapshot.get, field, Option.bind_some,
    hlookup "name" (by decide), hlookup "cost" (by decide),
    hlookup "manufacturer" (by decide), hlookup "imageURL" (by decide)]
  exact ⟨hname, hcost, hmaker, himage, rfl, trivial⟩

theorem OrderDoc.Proper.congr {d : OrderDoc} (hs : s.catalog = s'.catalog)
    (h : d.Proper formatter s) : d.Proper formatter s' := by
  refine ⟨h.nonempty, fun e he => ?_, h.days, h.date, h.status⟩
  obtain ⟨hn, ref, href, hsome⟩ := h.items e he
  exact ⟨hn, ref, href, by rw [← Store.isSome_congr hs]; exact hsome⟩

theorem Store.Copied.describes {d : LineDoc ℤ} (h : s.Copied d)
    (hn : 1 ≤ d.count) (lineID : String) : s.Describes (d.decode lineID) := by
  have hcopied := h
  obtain ⟨ref, href, hcatalog⟩ := h
  obtain ⟨item, hi, -⟩ := Option.map_eq_some_iff.mp hcatalog
  refine ⟨⟨ref, href, by rw [hi]; rfl⟩, ?_, hn⟩
  -- what is filled in does not depend on the id of the line
  have hfilled := congrArg
    (fun item : BasketItem => { item with itemID := lineID })
    (LineDoc.filledFrom_decode hcopied lineID)
  have hprevious : (previousItem s d.categoryID d.itemID).isSome := by
    rw [previousItem, Store.getDocument_eq, href]
    rfl
  obtain ⟨data, hdata⟩ := Option.isSome_iff_exists.mp hprevious
  rw [BasketItem.filledFrom_of_some hdata] at hfilled
  rw [BasketItem.filledFrom_of_some hdata]
  exact hfilled

theorem Store.offers_of_shows {categoryID : String} {doc : ItemDoc ℤ}
    {document : QueryDocumentSnapshot} {item : Item}
    (hdoc : s.items ⟨categoryID, document.documentID⟩ = some doc)
    (hdata : document.data = doc.data) (h : Item.Shows document item) :
    s.Offers categoryID item := by
  obtain ⟨documentID, data⟩ := document
  obtain ⟨hname, hcost, hmaker, himage, -, rfl⟩ := h
  subst hdata
  exact ⟨doc, hdoc, hname, hcost, hmaker, himage, rfl, rfl⟩

theorem OrderDoc.proper_ofOrder {order : Order} {flag : Bool}
    (h : BasketPresenter.Holds formatter s.Describes ⟨flag, some order⟩)
    (hne : order.items ≠ []) :
    (OrderDoc.ofOrder order).Proper formatter s := by
  refine ⟨fun hnil => hne (List.map_eq_nil_iff.mp hnil), fun e he => ?_,
    h.days order rfl, h.date order rfl, rfl⟩
  obtain ⟨item, hitem, rfl⟩ := List.mem_map.mp he
  have hdescribes := h.of_current rfl item hitem
  exact ⟨hdescribes.count, hdescribes.found⟩

end Catalogue

/-- What a listener hands over has been made of a document. -/
theorem NetworkService.document_of_snapshotListener {α : Type}
    {body : QueryDocumentSnapshot → Option α}
    {documents : List QueryDocumentSnapshot} {list : List α} {element : α}
    (h : .ok (some list) ∈ snapshotListener body (.ok documents))
    (he : element ∈ list) :
    ∃ document ∈ documents, body document = some element := by
  simp only [snapshotListener] at h
  split at h
  · next obj hobj =>
      obtain rfl := Option.some.inj (Except.ok.inj (List.mem_singleton.mp h))
      obtain ⟨read, rfl, hread⟩ := forDocuments_eq_some hobj
      clear hobj h
      induction hread with
      | nil => cases he
      | @cons document first documents read hfirst _ ih =>
          rcases List.mem_cons.mp he with rfl | he
          · exact ⟨document, List.mem_cons_self, hfirst⟩
          · obtain ⟨document', hmem, hbody⟩ := ih he
            exact ⟨document', List.mem_cons_of_mem _ hmem, hbody⟩
  · cases h

/-! ## The invariant -/

/-- No call touches an order. -/
theorem Call.orders_of_answered {s s' : Store ℤ} {k k' : Call ℤ}
    (h : Call.Answered s k s' k') : s'.orders = s.orders := by
  refine h.ind (P := fun t _ => t.orders = s.orders) rfl (fun s' k' ha => ?_)
    fun _ _ => rfl
  cases ha with
  | add ha =>
      cases ha with
      | updateStock req item n hu => exact Store.updateItem_orders hu
      | updateLine req uid pending err i hget hu =>
          obtain ⟨d, -, rfl⟩ := Store.updateLine_eq_some.mp hu
          rfl
      | _ => rfl
  | delete ha =>
      cases ha with
      | updateStock req n ref m hu => exact Store.updateItem_orders hu
      | _ => rfl

namespace World

variable {Date : Type} {formatter : DateFormatter Date} {s₀ : Store ℤ}
  {w w' : World}

structure Kept (formatter : DateFormatter Date) (s₀ : Store ℤ) (w : World) :
    Prop where
  copies : ∀ uid, s₀.CopiesOf uid w.store
  counts : w.store.Counts (0 ≤ ·) (1 ≤ ·)
  orders : ∀ key d, w.store.orders.get key = some d →
    s₀.orders.get key = some d ∨ d.Proper formatter s₀
  calls : ∀ call ∈ w.calls, call.Copies s₀ ∧ call.SignsKept
  writes : ∀ x ∈ w.writes, ∀ d, x.write = .addDocument d →
    d.Proper formatter s₀
  baskets : ∀ screen ∈ w.baskets, screen.Holds formatter s₀.Describes
  pages : ∀ page ∈ w.pages, page.screen.Holds (s₀.Offers page.category)
  basketSnapshots : ∀ items ∈ w.basketSnapshots, ∀ item ∈ items,
    s₀.Describes item
  itemSnapshots : ∀ e ∈ w.itemSnapshots, ∀ item ∈ e.2, s₀.Offers e.1 item

theorem kept_start
    (hlines : ∀ uid l d, s₀.line uid l = some d → s₀.Copied d)
    (hcounts : s₀.Counts (0 ≤ ·) (1 ≤ ·)) :
    (start s₀).Kept formatter s₀ where
  copies uid := ⟨rfl, hlines uid⟩
  counts := hcounts
  orders _ _ h := Or.inl h
  calls _ h := by cases h
  writes _ h := by cases h
  baskets _ h := by cases h
  pages _ h := by cases h
  basketSnapshots _ h := by cases h
  itemSnapshots _ h := by cases h

/-! ### Requests -/

theorem Kept.handled (h : w.Kept formatter s₀) {r : Handled ℤ}
    (hr : ∀ v call, r = .returned v call → call.OfHandler ∧ Honest call) :
    (w.handled r).Kept formatter s₀ := by
  cases r with
  | threw e => exact h
  | returned v call =>
      obtain ⟨hhandler, hhonest⟩ := hr v call rfl
      refine { h with calls := fun call' hcall' => ?_ }
      rcases List.mem_append.mp hcall' with hcall' | hcall'
      · exact h.calls call' hcall'
      · obtain rfl := List.mem_singleton.mp hcall'
        exact ⟨hhandler.copies, hhonest.signsKept⟩

def Harmless (formatter : DateFormatter Date) (s₀ : Store ℤ) :
    BasketEffect → Prop
  | .putOrder order => (OrderDoc.ofOrder order).Proper formatter s₀
  | _ => True

theorem Kept.perform (h : w.Kept formatter s₀) {request : BasketEffect}
    (hr : Harmless formatter s₀ request) (currentUser : Option String) :
    (w.perform currentUser request).Kept formatter s₀ := by
  cases request with
  | putOrder order =>
      refine { h with writes := fun x hx d hd => ?_ }
      rcases List.mem_append.mp hx with hx | hx
      · exact h.writes x hx d hd
      · obtain ⟨write, hwrite, rfl⟩ := List.mem_map.mp hx
        cases currentUser with
        | none => cases hwrite
        | some uid =>
            rcases mem_putOrder.mp hwrite with rfl | ⟨item, -, rfl⟩
            · obtain rfl := PutWrite.addDocument.inj hd
              exact hr
            · cases hd
  | removeFromBasket itemID dbItemID categoryID =>
      exact h.handled fun v call hcall =>
        ⟨.delete _ currentUser hcall, .delete _ currentUser hcall⟩
  | _ => exact h

theorem Kept.foldl_perform {requests : List BasketEffect}
    (hr : ∀ request ∈ requests, Harmless formatter s₀ request)
    (h : w.Kept formatter s₀) (currentUser : Option String) :
    (requests.foldl (World.perform currentUser) w).Kept formatter s₀ := by
  induction requests generalizing w with
  | nil => exact h
  | cons request rest ih =>
      refine ih (fun r hr' => hr r (List.mem_cons_of_mem _ hr')) ?_
      exact h.perform (hr request List.mem_cons_self) currentUser

theorem harmless_of_requests {screen : BasketScreen}
    (h : screen.Holds formatter s₀.Describes) {e : BasketScreenEvent Date}
    {request : BasketEffect} (hr : request ∈ screen.requests e) :
    Harmless formatter s₀ request := by
  cases request with
  | putOrder order =>
      obtain ⟨ho, hne⟩ := BasketScreen.order_of_requests hr
      have hholds : BasketPresenter.Holds formatter s₀.Describes
          ⟨false, some order⟩ :=
        .of_some (h.presenter.of_current ho) (h.presenter.days order ho)
          (h.presenter.date order ho)
      exact OrderDoc.proper_ofOrder hholds hne
  | _ => trivial

theorem Kept.addItemInBasket (h : w.Kept formatter s₀) {page : CategoryPage}
    {currentUser : Option String} {e : CategoryEvent}
    (he : ∀ row count isConnected, e = .addTapped row count isConnected →
      1 ≤ count) :
    (w.addItemInBasket page currentUser e).Kept formatter s₀ := by
  unfold World.addItemInBasket
  split
  · next row count =>
      split
      · exact h.handled fun v call hcall =>
          ⟨.add _ currentUser hcall,
            .add _ currentUser (he row count true rfl) hcall⟩
      · exact h
  · exact h

/-! ### Events -/

/-- A snapshot of a basket says what is in the lines. -/
theorem Kept.basketRead (h : w.Kept formatter s₀) (uid : String) :
    ∀ item ∈ getOrder w.store uid, s₀.Describes item := by
  intro item hitem
  obtain ⟨l, d, hd, rfl⟩ := mem_getOrder.mp hitem
  exact ((h.copies uid).lines l d hd).describes (h.counts.line uid l d hd) l

/-- A snapshot of a category says what is in the documents. -/
theorem Kept.itemsRead (h : w.Kept formatter s₀) {category : String}
    {documents : List QueryDocumentSnapshot}
    (hlisted : w.Listed category documents) :
    ∀ items ∈ itemsOf documents, ∀ item ∈ items, s₀.Offers category item := by
  intro items hitems item hitem
  obtain ⟨result, hresult, hok⟩ := List.mem_filterMap.mp hitems
  cases result with
  | error e => cases hok
  | ok list =>
      obtain rfl : list = some items := hok
      obtain ⟨document, hdocument, hshows⟩ :=
        document_of_snapshotListener hresult hitem
      obtain ⟨doc, hdoc, -, hdata⟩ := hlisted document hdocument
      exact (Store.offers_of_shows hdoc hdata
        (Item.ofDocument_eq_some.mp hshows)).congr (h.copies "").catalog

theorem Kept.basket (h : w.Kept formatter s₀) {k : ℕ}
    {e : BasketScreenEvent Date} {currentUser : Option String}
    (hok : Possible w (.basket k e currentUser))
    (hs : w.handle formatter (.basket k e currentUser) = some w') :
    w'.Kept formatter s₀ := by
  obtain ⟨screen, hscreen, hs⟩ := Option.bind_eq_some_iff.mp hs
  obtain ⟨screen', hscreen', rfl⟩ := Option.map_eq_some_iff.mp hs
  have hholds := h.baskets screen (List.mem_of_getElem? hscreen)
  have hbrings : e.Brings s₀.Describes := by
    cases e with
    | snapshot items now => exact h.basketSnapshots items hok
    | _ => trivial
  have hset : Kept formatter s₀
      { w with baskets := w.baskets.set k screen' } := by
    refine { h with baskets := fun s hs => ?_ }
    rcases List.mem_or_eq_of_mem_set hs with hs | rfl
    · exact h.baskets s hs
    · exact hholds.handle hbrings hscreen'
  exact hset.foldl_perform (fun _ => harmless_of_requests hholds) currentUser

theorem Kept.page (h : w.Kept formatter s₀) {k : ℕ} {e : CategoryEvent}
    {currentUser : Option String}
    (hok : Possible w (.page k e currentUser : WorldEvent Date))
    (hs : w.handle formatter (.page k e currentUser) = some w') :
    w'.Kept formatter s₀ := by
  obtain ⟨page, hpage, hs⟩ := Option.bind_eq_some_iff.mp hs
  obtain ⟨screen', hscreen', rfl⟩ := Option.map_eq_some_iff.mp hs
  have hholds := h.pages page (List.mem_of_getElem? hpage)
  have hbrings : e.Brings (s₀.Offers page.category) := by
    cases e with
    | snapshot items =>
        obtain ⟨page', hpage', hitems⟩ := hok
        obtain rfl := Option.some.inj (hpage.symm.trans hpage')
        exact h.itemSnapshots _ hitems
    | _ => trivial
  have hset : Kept formatter s₀
      { w with pages := w.pages.set k { page with screen := screen' } } := by
    refine { h with pages := fun p hp => ?_ }
    rcases List.mem_or_eq_of_mem_set hp with hp | rfl
    · exact h.pages p hp
    · exact hholds.handle (fun item n hitem => hitem) hbrings hscreen'
  refine hset.addItemInBasket ?_
  rintro row count isConnected rfl
  exact hok

theorem Kept.answered (h : w.Kept formatter s₀) {i : ℕ} {t : Turn}
    (hfresh : t.Fresh w.store)
    (hs : w.handle formatter (.answered i t) = some w') :
    w'.Kept formatter s₀ := by
  obtain ⟨call, hcall, rfl⟩ := Option.map_eq_some_iff.mp hs
  obtain ⟨hcopies, hsigns⟩ := h.calls call (List.mem_of_getElem? hcall)
  have hanswered : Call.Answered w.store call (call.step t w.store).1
      (call.step t w.store).2 := ⟨t, hfresh, rfl⟩
  have hafter := fun uid => hcopies.answered (h.copies uid) hanswered
  have hcounts := hsigns.answered h.counts hanswered
  refine { h with
    copies := fun uid => (hafter uid).1
    counts := hcounts.1
    orders := ?_
    calls := fun call' hcall' => ?_ }
  · change ∀ key d, (call.step t w.store).1.orders.get key = some d → _
    rw [Call.orders_of_answered hanswered]
    exact h.orders
  · rcases List.mem_or_eq_of_mem_set hcall' with hcall' | rfl
    · exact h.calls call' hcall'
    · exact ⟨(hafter "").2, hcounts.2⟩

/-- A write carried out adds an order, or takes a line away. -/
theorem Kept.written (h : w.Kept formatter s₀) {j : ℕ} {ok : Bool}
    {orderID : String}
    (hs : w.handle formatter (.written j ok orderID) = some w') :
    w'.Kept formatter s₀ := by
  obtain ⟨x, hx, rfl⟩ := Option.map_eq_some_iff.mp hs
  have hrest : ∀ y ∈ w.writes.eraseIdx j, ∀ d, y.write = .addDocument d →
      d.Proper formatter s₀ := fun y hy =>
    h.writes y (List.mem_of_mem_eraseIdx hy)
  cases ok with
  | false => exact { h with writes := hrest }
  | true =>
      have hproper := h.writes x (List.mem_of_getElem? hx)
      obtain ⟨userID, write⟩ := x
      cases write with
      | addDocument data =>
          refine { h with
            copies := fun uid => ⟨(h.copies uid).catalog, (h.copies uid).lines⟩
            counts := ⟨h.counts.stock, h.counts.line⟩
            orders := fun key d hd => ?_
            writes := hrest }
          change (w.store.orders.put (userKey userID orderID) data).get key =
            some d at hd
          rw [Keyed.Coll.get_put] at hd
          split at hd
          · obtain rfl := Option.some.inj hd
            exact Or.inr (hproper data rfl)
          · exact h.orders key d hd
      | delete itemID =>
          exact { h with
            copies := fun uid => (h.copies uid).deleteLine userID itemID
            counts := h.counts.deleteLine userID itemID
            writes := hrest }

theorem Kept.handle {e : WorldEvent Date} (h : w.Kept formatter s₀)
    (hok : w.Possible e) (hs : w.handle formatter e = some w') :
    w'.Kept formatter s₀ := by
  cases e with
  | basketOpened =>
      obtain rfl := Option.some.inj hs
      refine { h with baskets := fun s hs => ?_ }
      rcases List.mem_append.mp hs with hs | hs
      · exact h.baskets s hs
      · obtain rfl := List.mem_singleton.mp hs
        exact BasketScreen.holds_start
  | pageOpened category =>
      obtain rfl := Option.some.inj hs
      refine { h with pages := fun p hp => ?_ }
      rcases List.mem_append.mp hp with hp | hp
      · exact h.pages p hp
      · obtain rfl := List.mem_singleton.mp hp
        exact CategoryScreen.holds_start
  | basketRead uid =>
      obtain rfl := Option.some.inj hs
      refine { h with basketSnapshots := fun items hitems => ?_ }
      rcases List.mem_append.mp hitems with hitems | hitems
      · exact h.basketSnapshots items hitems
      · obtain rfl := List.mem_singleton.mp hitems
        exact h.basketRead uid
  | itemsRead category documents =>
      obtain rfl := Option.some.inj hs
      refine { h with itemSnapshots := fun e he => ?_ }
      rcases List.mem_append.mp he with he | he
      · exact h.itemSnapshots e he
      · obtain ⟨items, hitems, rfl⟩ := List.mem_map.mp he
        exact h.itemsRead hok items hitems
  | basket k e currentUser => exact h.basket hok hs
  | page k e currentUser => exact h.page hok hs
  | answered i t => exact h.answered hok hs
  | written j ok orderID => exact h.written hs

theorem kept_of_run
    (hlines : ∀ uid l d, s₀.line uid l = some d → s₀.Copied d)
    (hcounts : s₀.Counts (0 ≤ ·) (1 ≤ ·))
    (h : Run (World.handle formatter) Possible (start s₀) w) :
    w.Kept formatter s₀ :=
  h.invariant (fun _ _ _ hw hok hs => hw.handle hok hs)
    (kept_start hlines hcounts)

/-! ## Runs, written down -/

def possible? (w : World) : WorldEvent Date → Bool
  | .itemsRead category documents => documents.all fun document =>
      (w.store.items ⟨category, document.documentID⟩).any fun item =>
        decide (0 < item.count ∧ document.data = item.data)
  | .basket _ (.snapshot items _) _ => w.basketSnapshots.contains items
  | .page k (.snapshot items) _ => (w.pages[k]?).any fun page =>
      w.itemSnapshots.contains (page.category, items)
  | .page _ (.addTapped _ count _) _ => decide (1 ≤ count)
  | .answered _ t => t.fresh? w.store
  | .written _ _ orderID =>
      w.store.orders.docs.all fun e => (ofLex e.1).2 ≠ orderID
  | _ => true

theorem possible_of_possible? {e : WorldEvent Date}
    (h : w.possible? e = true) : w.Possible e := by
  cases e with
  | itemsRead category documents =>
      intro document hdocument
      obtain ⟨item, hitem, hlisted⟩ := Option.any_eq_true _ _ |>.mp
        (List.all_eq_true.mp h document hdocument)
      exact ⟨item, hitem, of_decide_eq_true hlisted⟩
  | basket k e currentUser =>
      cases e with
      | snapshot items now =>
          have hmem : items ∈ w.basketSnapshots := List.contains_iff_mem.mp h
          exact hmem
      | _ => trivial
  | page k e currentUser =>
      cases e with
      | snapshot items =>
          obtain ⟨page, hpage, hmem⟩ := Option.any_eq_true _ _ |>.mp h
          exact ⟨page, hpage, List.contains_iff_mem.mp hmem⟩
      | addTapped row count isConnected =>
          have hcount : 1 ≤ count := of_decide_eq_true h
          exact hcount
      | _ => trivial
  | answered i t => exact Turn.fresh_of_fresh? h
  | written j ok orderID =>
      intro u
      cases ho : w.store.orders.get (userKey u orderID) with
      | none => rfl
      | some d =>
          have hm := List.all_eq_true.mp h _ (Keyed.Coll.mem_docs_of_get ho)
          simp [userKey] at hm
  | _ => trivial

theorem exists_run {P : World → Prop} [DecidablePred P]
    (events : List (WorldEvent Date))
    (h : (play (World.handle formatter) (fun w e => w.possible? e = true)
      events (start s₀)).any (fun w => decide (P w)) = true) :
    ∃ w, Run (World.handle formatter) Possible (start s₀) w ∧ P w := by
  obtain ⟨w, hrun, hw⟩ := exists_run_of_play events h
  exact ⟨w, hrun.mono fun _ _ => possible_of_possible?, hw⟩

def cameraDescribed : BasketItem :=
  ⟨"l", "Camera", 500, "camera.png", "Canon", 2, "photo", "cam"⟩

/-- Ann finds the camera on its page, adds two and orders them for two days. -/
def cameraOrdered : List (WorldEvent String) :=
  [.pageOpened "photo",
    .itemsRead "photo" [⟨"cam", [("count", .int 3),
      ("name", .string "Camera"), ("cost", .int 500),
      ("imageURL", .string "camera.png"),
      ("manufacturer", .string "Canon")]⟩],
    .page 0 (.snapshot [⟨"Camera", 500, "Canon", "camera.png", 3, "cam"⟩])
      (some "ann"),
    .page 0 (.addTapped 0 2 true) (some "ann"),
    .answered 0 ⟨true, "", 0⟩, .answered 0 ⟨true, "", 0⟩,
    .answered 0 ⟨true, "", 0⟩, .answered 0 ⟨true, "l", 0⟩,
    .basketOpened, .basketRead "ann",
    .basket 0 (.snapshot [cameraDescribed] "01.06.2020") (some "ann"),
    .basket 0 (.stepperTapped true) (some "ann"),
    .basket 0 (.dateChanged "05.06.2020") (some "ann"),
    .basket 0 (.orderTapped true) (some "ann"), .written 0 true "o"]

theorem pricedCamera_lines (uid l : String) (d : LineDoc ℤ)
    (h : pricedCamera.line uid l = some d) : pricedCamera.Copied d := by
  cases h

theorem pricedCamera_counts : pricedCamera.Counts (0 ≤ ·) (1 ≤ ·) := by
  refine ⟨fun ref item hi => ?_, fun uid l d hd => ?_⟩
  · simp only [pricedCamera] at hi
    split at hi
    · rw [← Option.some.inj hi]
      decide
    · cases hi
  · cases hd

/-! ## What can be relied on -/

/-- Whatever the users do and the backend answers, on any number of devices
and in any order: counts are in order, and every line in the database, every
item of a basket screen and every row of a page says what is in the catalogue
at the time. -/
theorem described_of_run
    (hlines : ∀ uid l d, s₀.line uid l = some d → s₀.Copied d)
    (hcounts : s₀.Counts (0 ≤ ·) (1 ≤ ·))
    (h : Run (World.handle formatter) Possible (start s₀) w) :
    w.store.Counts (0 ≤ ·) (1 ≤ ·) ∧
    (∀ uid l d, w.store.line uid l = some d →
      w.store.Describes (d.decode l)) ∧
    (∀ screen ∈ w.baskets, ∀ item,
      item ∈ screen.view.rows ∨ item ∈ screen.presenter.lines →
        w.store.Describes item) ∧
    ∀ page ∈ w.pages, ∀ k item, page.screen.row k = some item →
      w.store.Offers page.category item := by
  have hkept := kept_of_run hlines hcounts h
  have hcatalog := (hkept.copies "").catalog.symm
  refine ⟨hkept.counts, fun uid l d hd => ?_,
    fun screen hscreen item hitem => ?_, fun page hpage k item hitem => ?_⟩
  · have hcopied := (hkept.copies uid).lines l d hd
    exact (hcopied.describes (hkept.counts.line uid l d hd) l).congr hcatalog
  · have hholds := hkept.baskets screen hscreen
    exact (hitem.elim (hholds.rows item) (hholds.presenter.items item)).congr
      hcatalog
  · exact ((hkept.pages page hpage).row hitem).congr hcatalog

/-- Ann's basket and the page, when the order is in. -/
theorem described_of_run_camera :
    ∃ w, Run (World.handle plainDates) Possible (start pricedCamera) w ∧
      w.store.Describes cameraDescribed ∧
      w.store.Offers "photo"
        ⟨"Camera", 500, "Canon", "camera.png", 3, "cam"⟩ := by
  obtain ⟨w, hrun, hscreen, hpage⟩ :
      ∃ w, Run (World.handle plainDates) Possible (start pricedCamera) w ∧
        (w.baskets.map fun screen => screen.view.rows) = [[cameraDescribed]] ∧
        (w.pages.map fun page => (page.category, page.screen.row 0)) =
          [("photo",
            some ⟨"Camera", 500, "Canon", "camera.png", 3, "cam"⟩)] :=
    exists_run cameraOrdered (by decide +kernel)
  obtain ⟨-, -, hbaskets, hpages⟩ :=
    described_of_run pricedCamera_lines pricedCamera_counts hrun
  refine ⟨w, hrun, ?_, ?_⟩
  · obtain ⟨screen, hmem, hrows⟩ := List.mem_map.mp
      (hscreen ▸ List.mem_singleton_self _ :
        [cameraDescribed] ∈ w.baskets.map fun screen => screen.view.rows)
    refine hbaskets screen hmem _ (Or.inl ?_)
    rw [hrows]
    exact List.mem_singleton_self _
  · obtain ⟨page, hmem, hrow⟩ := List.mem_map.mp
      (hpage ▸ List.mem_singleton_self _ :
        ("photo", some _) ∈ w.pages.map fun page =>
          (page.category, page.screen.row 0))
    obtain ⟨hphoto, hrow⟩ := Prod.mk.inj hrow
    rw [← hphoto]
    exact hpages page hmem 0 _ hrow

/-! ## What a request leaves alone

It is a new call or a few new writes. -/

theorem exists_handled (w : World) (r : Handled ℤ) :
    ∃ calls, w.handled r = { w with calls := calls } := by
  cases r with
  | threw e => exact ⟨w.calls, rfl⟩
  | returned v call => exact ⟨w.calls ++ [call], rfl⟩

theorem exists_perform (w : World) (currentUser : Option String)
    (request : BasketEffect) : ∃ calls writes,
      w.perform currentUser request =
        { w with calls := calls, writes := writes } := by
  cases request with
  | putOrder order => exact ⟨w.calls, _, rfl⟩
  | removeFromBasket itemID dbItemID categoryID =>
      obtain ⟨calls, h⟩ := w.exists_handled (deleteItemFromBasket
        (some ⟨.str itemID, .str categoryID, .str dbItemID⟩) currentUser)
      exact ⟨calls, w.writes, h⟩
  | _ => exact ⟨w.calls, w.writes, rfl⟩

theorem exists_foldl_perform (w : World) (currentUser : Option String)
    (requests : List BasketEffect) : ∃ calls writes,
      requests.foldl (World.perform currentUser) w =
        { w with calls := calls, writes := writes } := by
  induction requests generalizing w with
  | nil => exact ⟨w.calls, w.writes, rfl⟩
  | cons request rest ih =>
      obtain ⟨calls, writes, h⟩ := w.exists_perform currentUser request
      rw [List.foldl_cons, h]
      exact ih _

theorem exists_addItemInBasket (w : World) (page : CategoryPage)
    (currentUser : Option String) (e : CategoryEvent) : ∃ calls,
      w.addItemInBasket page currentUser e = { w with calls := calls } := by
  unfold World.addItemInBasket
  split
  · split
    · exact w.exists_handled _
    · exact ⟨w.calls, rfl⟩
  · exact ⟨w.calls, rfl⟩

/-- No event changes an order, or takes it away. -/
theorem orders_handle {e : WorldEvent Date} (hok : w.Possible e)
    (hs : w.handle formatter e = some w') {key : UserKey} {d : OrderDoc}
    (hd : w.store.orders.get key = some d) :
    w'.store.orders.get key = some d := by
  cases e with
  | basketOpened | pageOpened | basketRead | itemsRead =>
      obtain rfl := Option.some.inj hs
      exact hd
  | basket k e currentUser =>
      obtain ⟨screen, -, hs⟩ := Option.bind_eq_some_iff.mp hs
      obtain ⟨screen', -, rfl⟩ := Option.map_eq_some_iff.mp hs
      obtain ⟨calls, writes, heq⟩ := exists_foldl_perform
        { w with baskets := w.baskets.set k screen' } currentUser
        (screen.requests e)
      rw [heq]
      exact hd
  | page k e currentUser =>
      obtain ⟨page, -, hs⟩ := Option.bind_eq_some_iff.mp hs
      obtain ⟨screen', -, rfl⟩ := Option.map_eq_some_iff.mp hs
      obtain ⟨calls, heq⟩ := exists_addItemInBasket
        { w with pages := w.pages.set k { page with screen := screen' } } page
        currentUser e
      rw [heq]
      exact hd
  | answered i t =>
      obtain ⟨call, -, rfl⟩ := Option.map_eq_some_iff.mp hs
      have hanswered : Call.Answered w.store call (call.step t w.store).1
          (call.step t w.store).2 := ⟨t, hok, rfl⟩
      change (call.step t w.store).1.orders.get key = some d
      rw [Call.orders_of_answered hanswered]
      exact hd
  | written j ok orderID =>
      obtain ⟨⟨userID, write⟩, -, rfl⟩ := Option.map_eq_some_iff.mp hs
      cases ok with
      | false => exact hd
      | true =>
          cases write with
          | delete itemID => exact hd
          | addDocument data =>
              change (w.store.orders.put (userKey userID orderID) data).get
                key = some d
              rw [Keyed.Coll.get_put, if_neg]
              · exact hd
              · rintro rfl
                cases (hok userID).symm.trans hd

/-- Every order document in a world that began with `s₀` has been there from
the beginning or is one the shop can work with: it has lines, each of at least
one unit of a stock document that exists, and days and a date such as the
screen lets through. And it stays as it is, whatever happens later. -/
theorem orders_of_run
    (hlines : ∀ uid l d, s₀.line uid l = some d → s₀.Copied d)
    (hcounts : s₀.Counts (0 ≤ ·) (1 ≤ ·))
    (h : Run (World.handle formatter) Possible (start s₀) w)
    {key : UserKey} {d : OrderDoc} (hd : w.store.orders.get key = some d) :
    (s₀.orders.get key = some d ∨ d.Proper formatter w.store) ∧
      ∀ w', Run (World.handle formatter) Possible w w' →
        w'.store.orders.get key = some d := by
  have hkept := kept_of_run hlines hcounts h
  refine ⟨(hkept.orders key d hd).imp_right fun hproper =>
    hproper.congr (hkept.copies "").catalog.symm, fun w' h' => ?_⟩
  exact h'.invariant (I := fun w => w.store.orders.get key = some d)
    (fun _ _ _ hw hok hs => orders_handle hok hs hw) hd

/-- Ann's order, whatever is done after it. -/
theorem orders_of_run_camera :
    ∃ w d, Run (World.handle plainDates) Possible (start pricedCamera) w ∧
      w.store.orders.get (userKey "ann" "o") = some d ∧ d.countOfDay = 2 ∧
      d.Proper plainDates w.store := by
  obtain ⟨w, hrun, hd⟩ :
      ∃ w, Run (World.handle plainDates) Possible (start pricedCamera) w ∧
        w.store.orders.get (userKey "ann" "o") =
          some ⟨[⟨"photo", "cam", 2⟩], "В работе", "05.06.2020", 2⟩ :=
    exists_run cameraOrdered (by decide +kernel)
  obtain ⟨hproper, -⟩ :=
    orders_of_run pricedCamera_lines pricedCamera_counts hrun hd
  refine ⟨w, _, hrun, hd, rfl, hproper.resolve_left fun h => ?_⟩
  cases h

end World

end PhoRent
