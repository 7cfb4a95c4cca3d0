import PhoRent.Proofs.Tidy
import PhoRent.Proofs.World

/-!
# The shop at work

The whole of it again, screens, functions and documents, and this time with
what it is for. Calls about different items may be under way together, and
while the writes of an order are being answered other users' calls go on. As
long as that is all, and whatever is asked for is carried out, the documents
together with the work in progress are a shop at every moment, and the shop
has got there by what customers do: one step at a time, whole steps only.

What the screens send does not have to be assumed right. A removal goes out
with the ids a snapshot has brought, and as ids are not used twice they lead
to the line they came from or to none.
-/

namespace PhoRent

open Machine NetworkService Simulation

open BasketScreen (plainDates)

/-- The ids of the item are those of its line, if there still is one. -/
structure Store.Fits (s : Store ℤ) (item : BasketItem) : Prop where
  docID : DocID item.itemID
  proper : ItemRef.Proper ⟨item.categoryID, item.dbItemID⟩
  line : ∀ uid d, s.line uid item.itemID = some d →
    d.ref = ⟨item.categoryID, item.dbItemID⟩

/-- The ids of lines are document ids, and no two users have the same. -/
structure Store.OwnIDs (s : Store ℤ) : Prop where
  docID : s.LineIDs
  user : ∀ u u' l d d', s.line u l = some d → s.line u' l = some d' → u = u'

section Lines

variable {s s' : Store ℤ} {id : String}

theorem Store.OwnIDs.fewer (h : s.OwnIDs)
    (hl : ∀ u l d', s'.line u l = some d' → ∃ d, s.line u l = some d) :
    s'.OwnIDs := by
  refine ⟨fun u l d' hd' => ?_, fun u u' l d d' hd hd' => ?_⟩
  · obtain ⟨d, hd⟩ := hl u l d' hd'
    exact h.docID u l d hd
  · obtain ⟨e, he⟩ := hl u l d hd
    obtain ⟨e', he'⟩ := hl u' l d' hd'
    exact h.user u u' l e e' he he'

theorem Store.Fits.fewer {item : BasketItem} (h : s.Fits item)
    (hl : ∀ u d', s'.line u item.itemID = some d' →
      ∃ d, s.line u item.itemID = some d ∧ d.ref = d'.ref) : s'.Fits item := by
  refine ⟨h.docID, h.proper, fun u d' hd' => ?_⟩
  obtain ⟨d, hd, href⟩ := hl u d' hd'
  exact href ▸ h.line u d hd

/-- A step of a call gives the caller a line with the id drawn, at most. -/
theorem Store.OwnIDs.beside {k : Call ℤ} (h : s.OwnIDs)
    (hb : k.Beside id s s') (hid : DocID id)
    (hnew : ∀ u, s.line u id = none) : s'.OwnIDs := by
  have hcaller : ∀ u d, s'.line u id = some d → k.caller? = some u := by
    intro u d hd
    by_contra hu
    rw [hb.users u id hu, hnew u] at hd
    cases hd
  refine ⟨fun u l d' hd' => ?_, fun u u' l d d' hd hd' => ?_⟩
  · by_cases hl : l = id
    · exact hl ▸ hid
    · obtain ⟨d, hd, -⟩ := hb.known u l d' hl hd'
      exact h.docID u l d hd
  · by_cases hl : l = id
    · subst hl
      exact Option.some.inj ((hcaller u d hd).symm.trans (hcaller u' d' hd'))
    · obtain ⟨e, he, -⟩ := hb.known u l d hl hd
      obtain ⟨e', he', -⟩ := hb.known u' l d' hl hd'
      exact h.user u u' l e e' he he'

theorem Store.OwnIDs.fits_decode (h : s.OwnIDs) (hs : s.Sound) {uid l : String}
    {d : LineDoc ℤ} (hl : s.line uid l = some d) : s.Fits (d.decode l) := by
  refine ⟨h.docID uid l d hl, hs.ref hl, fun u d' hd' => ?_⟩
  obtain rfl := h.user uid u l d d' hl hd'
  obtain rfl := Option.some.inj (hl.symm.trans hd')
  rfl

end Lines

namespace BasketScreen

variable {Date : Type} {formatter : DateFormatter Date}
  {P Q : BasketItem → Prop} {s : BasketScreen}

theorem Holds.mono (h : s.Holds formatter P) (hPQ : ∀ item, P item → Q item) :
    s.Holds formatter Q :=
  ⟨⟨fun item hitem => hPQ item (h.presenter.items item hitem),
      h.presenter.days, h.presenter.date, h.presenter.idle⟩,
    fun item hitem => hPQ item (h.rows item hitem), h.minimum, h.maximum⟩

/-- A handler asks for one thing at most; the rest are alerts. -/
theorem foldl_requests (s : BasketScreen) (e : BasketScreenEvent Date)
    (currentUser : Option String) (w : World) :
    (s.requests e).foldl (World.perform currentUser) w = w ∨
      ∃ request ∈ s.requests e,
        (s.requests e).foldl (World.perform currentUser) w =
          w.perform currentUser request := by
  cases e with
  | removeTapped index =>
      simp only [requests, BasketPresenter.removeFromBasket]
      cases s.presenter.currentOrder with
      | none => exact Or.inl rfl
      | some order =>
          cases hi : order.items[index]? with
          | none =>
              simp only [hi, Option.map_none, Option.getD_none]
              exact Or.inl rfl
          | some item =>
              simp only [hi, Option.map_some, Option.getD_some]
              exact Or.inr ⟨_, List.mem_cons_self, rfl⟩
  | orderTapped isConnected =>
      simp only [requests, BasketPresenter.putOrder]
      split
      · exact Or.inl rfl
      · split
        · exact Or.inl rfl
        · split
          · exact Or.inr ⟨_, List.mem_cons_self, rfl⟩
          · exact Or.inl rfl
  | _ => exact Or.inl rfl

end BasketScreen

namespace World

variable {Date : Type} {formatter : DateFormatter Date} {s₀ : Store ℤ}
  {w w' : World}

/-! ## Order -/

def Seen (w : World) (item : BasketItem) : Prop :=
  ∃ items ∈ w.basketSnapshots, item ∈ items

/-- A document id that no snapshot has brought, and no call asks for. -/
def Unseen (w : World) (id : String) : Prop :=
  DocID id ∧ (∀ items ∈ w.basketSnapshots, ∀ item ∈ items, item.itemID ≠ id) ∧
    ∀ call ∈ w.calls, call.lineID? ≠ some id

/-- Nothing under way is about the item, and no order of the user is. -/
def Free (w : World) (ref : ItemRef) (uid : String) : Prop :=
  (∀ call ∈ w.calls, call.item? ≠ some ref) ∧
    ∀ x ∈ w.writes, x.userID ≠ uid

/-- What a screen may ask for: an order of what is in the basket, with nothing
under way for the user, and a removal of an item that is free. -/
def MayAsk (w : World) (uid : String) : BasketEffect → Prop
  | .putOrder order => order.items.Perm (getOrder w.store uid) ∧
      (∀ call ∈ w.calls, call.caller? ≠ some uid) ∧
      ∀ x ∈ w.writes, x.userID ≠ uid
  | .removeFromBasket _ dbItemID categoryID =>
      w.Free ⟨categoryID, dbItemID⟩ uid
  | _ => True

/-- Nobody gets in anybody's way, operations are carried out, and an id drawn
is one nobody has seen. -/
def Orderly (w : World) : WorldEvent Date → Prop
  | .basket k e (some uid) => ∀ screen, w.baskets[k]? = some screen →
      ∀ request ∈ screen.requests e, w.MayAsk uid request
  | .page k (.addTapped row _ true) currentUser =>
      ∀ page, w.pages[k]? = some page →
        ∀ item, page.screen.row row = some item →
          ∃ uid ∈ currentUser, w.Free ⟨page.category, item.ID⟩ uid
  | .answered _ t => t.ok = true ∧ w.Unseen t.autoId
  | .written _ ok _ => ok = true
  | _ => True

def shop (w : World) : Shop.State String ItemRef :=
  w.store.shopWith w.calls w.writes

theorem shop_of_finished (hcalls : ∀ call ∈ w.calls, call.Finished)
    (hwrites : w.writes = []) : w.shop = w.store.shop := by
  rw [World.shop, hwrites]
  exact Store.shopWith_finished hcalls

structure AtWork (formatter : DateFormatter Date) (s₀ : Store ℤ) (w : World) :
    Prop where
  kept : w.Kept formatter s₀
  tidy : w.store.Tidy w.calls w.writes
  ownIDs : w.store.OwnIDs
  seen : ∀ item, w.Seen item → w.store.Fits item
  screens : ∀ screen ∈ w.baskets, screen.Holds formatter w.Seen

/-! ## Requests -/

/-- What has come of a request: the shop has taken a step or none. -/
def Goes (w w' : World) : Prop :=
  w'.store.Tidy w'.calls w'.writes ∧
    Relation.ReflTransGen Shop.Step w.shop w'.shop

theorem goes_refl (h : w.store.Tidy w.calls w.writes) : w.Goes w := ⟨h, .refl⟩

/-- A call that has only been asked for is nothing to the shop yet. -/
theorem goes_called (h : w.store.Tidy w.calls w.writes) {call : Call ℤ}
    {v : Returned} (hcall : call.InHand w.store)
    (hitem : ∀ ref, call.item? = some ref →
      ∀ c ∈ w.calls, c.item? ≠ some ref)
    (husers : ∀ x ∈ w.writes, call.caller? ≠ some x.userID)
    (hshelf : ∀ ref, call.toShelf ref = 0)
    (hbasket : ∀ u ref, call.toBasket u ref = 0) :
    w.Goes (w.handled (.returned v call)) := by
  have hperm : (call :: w.calls).Perm (w.calls ++ [call]) :=
    (List.perm_append_singleton call w.calls).symm
  refine ⟨(h.called hcall hitem husers).perm hperm (.refl _), ?_⟩
  have hsame : (w.handled (.returned v call)).shop = w.shop := by
    change w.store.shopWith (w.calls ++ [call]) w.writes = _
    rw [← Store.shopWith_perm hperm (.refl _),
      Store.shopWith_cons hshelf hbasket]
    rfl
  rw [hsame]

theorem goes_removal (h : w.store.Tidy w.calls w.writes) {item : BasketItem}
    (hfits : w.store.Fits item) {uid : String}
    (hfree : w.Free ⟨item.categoryID, item.dbItemID⟩ uid) :
    w.Goes (w.perform (some uid)
      (.removeFromBasket item.itemID item.dbItemID item.categoryID)) := by
  have hcategory := docPath_str hfits.proper.1
  have hitem := docPath_str hfits.proper.2
  simp only [perform, deleteItemFromBasket, docPath_str hfits.docID,
    hcategory, hitem]
  refine goes_called h (.leaving fun d hd => ?_) (fun ref href => ?_)
    (fun x hx hu => ?_) (fun _ => rfl) fun _ _ => rfl
  · rw [hfits.line uid d hd]
    rfl
  · obtain rfl := Option.some.inj href
    exact hfree.1
  · exact hfree.2 x hx (Option.some.inj hu).symm

theorem goes_order (h : w.store.Tidy w.calls w.writes) {order : Order}
    {uid : String} (hmay : w.MayAsk uid (.putOrder order)) :
    w.Goes (w.perform (some uid) (.putOrder order)) := by
  obtain ⟨hitems, hcalls, hwrites⟩ := hmay
  obtain ⟨htidy, hshop⟩ := h.ordered hitems hcalls hwrites
  refine ⟨htidy, ?_⟩
  have hplace : (w.perform (some uid) (.putOrder order)).shop =
      w.shop.place uid order.date order.countOfDay := hshop
  rw [hplace]
  exact .single (.order uid order.date order.countOfDay)

theorem goes_perform (h : w.store.Tidy w.calls w.writes)
    {request : BasketEffect} {currentUser : Option String}
    (hmay : ∀ uid, currentUser = some uid → w.MayAsk uid request)
    (hfits : ∀ itemID dbItemID categoryID,
      request = .removeFromBasket itemID dbItemID categoryID →
        ∃ item, w.store.Fits item ∧ item.itemID = itemID ∧
          item.dbItemID = dbItemID ∧ item.categoryID = categoryID) :
    w.Goes (w.perform currentUser request) := by
  cases request with
  | putOrder order =>
      cases currentUser with
      | none =>
          have hnone : w.perform none (.putOrder order) = w := by
            simp [perform, NetworkService.putOrder]
          rw [hnone]
          exact goes_refl h
      | some uid => exact goes_order h (hmay uid rfl)
  | removeFromBasket itemID dbItemID categoryID =>
      cases currentUser with
      | none => exact goes_refl h
      | some uid =>
          obtain ⟨item, hitem, rfl, rfl, rfl⟩ := hfits _ _ _ rfl
          exact goes_removal h hitem (hmay uid rfl)
  | _ => exact goes_refl h

theorem goes_addItemInBasket (h : w.store.Tidy w.calls w.writes)
    {page : CategoryPage} {e : CategoryEvent} {currentUser : Option String}
    (he : ∀ row count, e = .addTapped row count true → 1 ≤ count ∧
      ∀ item, page.screen.row row = some item →
        ItemRef.Proper ⟨page.category, item.ID⟩ ∧
          ∃ uid ∈ currentUser, w.Free ⟨page.category, item.ID⟩ uid) :
    w.Goes (w.addItemInBasket page currentUser e) := by
  unfold World.addItemInBasket
  split
  · next row count =>
      obtain ⟨hcount, hrow⟩ := he row count rfl
      split
      · next item hitem =>
          obtain ⟨hproper, uid, huser, hfree⟩ := hrow item hitem
          obtain rfl : currentUser = some uid := huser
          rw [addItemInBasket_of hproper uid count]
          refine goes_called h (.asked hcount) (fun ref href => ?_)
            (fun x hx hu => ?_) (fun _ => rfl) fun _ _ => rfl
          · obtain rfl := Option.some.inj href
            exact hfree.1
          · exact hfree.2 x hx (Option.some.inj hu).symm
      · exact goes_refl h
  · exact goes_refl h

/-! ## Events -/

section Events

theorem AtWork.basketRead (h : w.AtWork formatter s₀) (uid : String) :
    ∀ item, Seen { w with basketSnapshots := w.basketSnapshots ++
      [getOrder w.store uid] } item → w.store.Fits item := by
  intro item hseen
  obtain ⟨items, hitems, hitem⟩ := hseen
  rcases List.mem_append.mp hitems with hitems | hitems
  · exact h.seen item ⟨items, hitems, hitem⟩
  · obtain rfl := List.mem_singleton.mp hitems
    obtain ⟨l, d, hl, rfl⟩ := mem_getOrder.mp hitem
    exact h.ownIDs.fits_decode h.tidy.sound hl

/-- A basket screen handles an event, and something may be asked for. -/
theorem AtWork.basket (h : w.AtWork formatter s₀) {k : ℕ}
    {e : BasketScreenEvent Date} {currentUser : Option String}
    (hok : Possible w (.basket k e currentUser))
    (hord : w.Orderly (.basket k e currentUser))
    (hs : w.handle formatter (.basket k e currentUser) = some w') :
    w'.AtWork formatter s₀ ∧
      Relation.ReflTransGen Shop.Step w.shop w'.shop := by
  have hkept := h.kept.handle hok hs
  obtain ⟨screen, hscreen, hs⟩ := Option.bind_eq_some_iff.mp hs
  obtain ⟨screen', hscreen', rfl⟩ := Option.map_eq_some_iff.mp hs
  have hholds := h.screens screen (List.mem_of_getElem? hscreen)
  let w₁ : World := { w with baskets := w.baskets.set k screen' }
  have hscreens : ∀ s ∈ w₁.baskets, s.Holds formatter w.Seen := by
    intro s hmem
    rcases List.mem_or_eq_of_mem_set hmem with hmem | rfl
    · exact h.screens s hmem
    · refine hholds.handle ?_ hscreen'
      cases e with
      | snapshot items now => exact fun item hitem => ⟨items, hok, hitem⟩
      | _ => trivial
  have hfits : ∀ request ∈ screen.requests e, ∀ itemID dbItemID categoryID,
      request = .removeFromBasket itemID dbItemID categoryID →
        ∃ item, w.store.Fits item ∧ item.itemID = itemID ∧
          item.dbItemID = dbItemID ∧ item.categoryID = categoryID := by
    rintro request hmem itemID dbItemID categoryID rfl
    obtain ⟨item, hitem, hids⟩ := BasketScreen.item_of_requests hmem
    exact ⟨item, h.seen item (hholds.presenter.items item hitem), hids⟩
  have hmay : ∀ request ∈ screen.requests e, ∀ uid, currentUser = some uid →
      w.MayAsk uid request := by
    rintro request hmem uid rfl
    exact hord screen hscreen request hmem
  have hone := screen.foldl_requests e currentUser w₁
  rcases hone with hsame | ⟨request, hmem, hone⟩
  · rw [hsame] at hkept ⊢
    exact ⟨⟨hkept, h.tidy, h.ownIDs, h.seen, hscreens⟩, .refl⟩
  · rw [hone] at hkept ⊢
    have hmay₁ : ∀ uid, currentUser = some uid → w₁.MayAsk uid request := by
      intro uid hu
      have hask := hmay request hmem uid hu
      cases request <;> exact hask
    have hgoes : w₁.Goes (w₁.perform currentUser request) :=
      goes_perform (w := w₁) h.tidy hmay₁ (hfits request hmem)
    obtain ⟨htidy, hshop⟩ := hgoes
    obtain ⟨calls, writes, heq⟩ := w₁.exists_perform currentUser request
    rw [heq] at hkept htidy hshop ⊢
    exact ⟨⟨hkept, htidy, h.ownIDs, h.seen, hscreens⟩, hshop⟩

theorem AtWork.page (h : w.AtWork formatter s₀) (hs₀ : s₀.Sound) {k : ℕ}
    {e : CategoryEvent} {currentUser : Option String}
    (hok : Possible w (.page k e currentUser : WorldEvent Date))
    (hord : w.Orderly (.page k e currentUser : WorldEvent Date))
    (hs : w.handle formatter (.page k e currentUser) = some w') :
    w'.AtWork formatter s₀ ∧
      Relation.ReflTransGen Shop.Step w.shop w'.shop := by
  have hkept := h.kept.handle hok hs
  obtain ⟨page, hpage, hs⟩ := Option.bind_eq_some_iff.mp hs
  obtain ⟨screen', -, rfl⟩ := Option.map_eq_some_iff.mp hs
  have hholds := h.kept.pages page (List.mem_of_getElem? hpage)
  let w₁ : World :=
    { w with pages := w.pages.set k { page with screen := screen' } }
  have hgoes : w₁.Goes (w₁.addItemInBasket page currentUser e) := by
    refine goes_addItemInBasket (w := w₁) h.tidy ?_
    rintro row count rfl
    refine ⟨hok, fun item hitem => ⟨?_, hord page hpage item hitem⟩⟩
    obtain ⟨doc, hdoc, -⟩ := hholds.row hitem
    exact hs₀.proper _ (by rw [hdoc]; exact Option.some_ne_none _)
  obtain ⟨htidy, hshop⟩ := hgoes
  obtain ⟨calls, heq⟩ := w₁.exists_addItemInBasket page currentUser e
  rw [heq] at hkept htidy hshop ⊢
  exact ⟨⟨hkept, htidy, h.ownIDs, h.seen, h.screens⟩, hshop⟩

theorem AtWork.answered (h : w.AtWork formatter s₀) {i : ℕ} {t : Turn}
    (hok : Possible w (.answered i t : WorldEvent Date))
    (hord : w.Orderly (.answered i t : WorldEvent Date))
    (hs : w.handle formatter (.answered i t) = some w') :
    w'.AtWork formatter s₀ ∧
      Relation.ReflTransGen Shop.Step w.shop w'.shop := by
  have hkept := h.kept.handle hok hs
  obtain ⟨hcarried, hdocID, hitems, hcalls⟩ := hord
  obtain ⟨call, hcall, hw'⟩ := Option.map_eq_some_iff.mp hs
  obtain ⟨hlt, rfl⟩ := List.getElem?_eq_some_iff.mp hcall
  generalize hstep : w.calls[i].step t w.store = z at hw'
  obtain ⟨s', k'⟩ := z
  obtain rfl := hw'
  have hperm := (List.getElem_cons_eraseIdx_perm hlt).symm
  have hset := (List.set_perm_cons_eraseIdx hlt k').symm
  have hadvances := (h.tidy.inHand _ (List.getElem_mem hlt)).advances
    h.tidy.sound hcarried hok hstep
  obtain ⟨htidy, hshop⟩ := (h.tidy.perm hperm (.refl _)).answered hadvances
    fun c hc => hcalls c (List.mem_of_mem_eraseIdx hc)
  refine ⟨⟨hkept, htidy.perm hset (.refl _),
    h.ownIDs.beside hadvances.beside hdocID hok, fun item hseen => ?_,
    h.screens⟩, ?_⟩
  · obtain ⟨items, hmem, hitem⟩ := hseen
    exact (h.seen item ⟨items, hmem, hitem⟩).fewer fun u d' =>
      hadvances.beside.known u _ d' (hitems items hmem item hitem)
  · rw [Store.shopWith_perm hperm.symm (.refl _),
      Store.shopWith_perm hset (.refl _)] at hshop
    exact hshop

theorem AtWork.written (h : w.AtWork formatter s₀) {j : ℕ} {ok : Bool}
    {orderID : String}
    (hok : Possible w (.written j ok orderID : WorldEvent Date))
    (hord : w.Orderly (.written j ok orderID : WorldEvent Date))
    (hs : w.handle formatter (.written j ok orderID) = some w') :
    w'.AtWork formatter s₀ ∧
      Relation.ReflTransGen Shop.Step w.shop w'.shop := by
  have hkept := h.kept.handle hok hs
  obtain rfl : ok = true := hord
  obtain ⟨x, hx, rfl⟩ := Option.map_eq_some_iff.mp hs
  obtain ⟨hlt, rfl⟩ := List.getElem?_eq_some_iff.mp hx
  have hperm := (List.getElem_cons_eraseIdx_perm hlt).symm
  have hnew : ∀ uid, w.store.orders.get (userKey uid orderID) = none := hok
  obtain ⟨htidy, hshop⟩ := (h.tidy.perm (.refl _) hperm).written (hnew _)
  -- no line has come, and those that have stayed are the same
  have hlines : ∀ u l d, (w.writes[j].write.apply w.writes[j].userID orderID
      w.store).line u l = some d → w.store.line u l = some d := by
    intro u l d hd
    cases hwrite : w.writes[j].write with
    | addDocument data => rw [hwrite] at hd; exact hd
    | delete l' =>
        rw [hwrite] at hd
        exact Store.line_of_deleteLine hd
  refine ⟨⟨hkept, htidy, h.ownIDs.fewer fun u l d hd => ⟨d, hlines u l d hd⟩,
    fun item hseen => ?_, h.screens⟩, ?_⟩
  · exact (h.seen item hseen).fewer fun u d hd => ⟨d, hlines u _ d hd, rfl⟩
  · have hsame : (w.writes[j].write.apply w.writes[j].userID orderID
        w.store).shopWith w.calls (w.writes.eraseIdx j) = w.shop :=
      hshop.trans (Store.shopWith_perm (.refl _) hperm.symm)
    exact hsame ▸ .refl

end Events

/-- The step lemma: whatever happens, the world stays in order, and the shop
takes the step of a customer or none. -/
theorem AtWork.handle (h : w.AtWork formatter s₀) (hs₀ : s₀.Sound)
    {e : WorldEvent Date} (hok : w.Possible e) (hord : w.Orderly e)
    (hs : w.handle formatter e = some w') :
    w'.AtWork formatter s₀ ∧
      Relation.ReflTransGen Shop.Step w.shop w'.shop := by
  have hkept := h.kept.handle hok hs
  cases e with
  | basketOpened =>
      obtain rfl := Option.some.inj hs
      refine ⟨⟨hkept, h.tidy, h.ownIDs, h.seen, fun s hmem => ?_⟩, .refl⟩
      rcases List.mem_append.mp hmem with hmem | hmem
      · exact h.screens s hmem
      · obtain rfl := List.mem_singleton.mp hmem
        exact BasketScreen.holds_start
  | pageOpened category =>
      obtain rfl := Option.some.inj hs
      exact ⟨⟨hkept, h.tidy, h.ownIDs, h.seen, h.screens⟩, .refl⟩
  | basketRead uid =>
      obtain rfl := Option.some.inj hs
      refine ⟨⟨hkept, h.tidy, h.ownIDs, h.basketRead uid, fun s hmem => ?_⟩,
        .refl⟩
      exact (h.screens s hmem).mono fun item hseen => by
        obtain ⟨items, hitems, hitem⟩ := hseen
        exact ⟨items, List.mem_append_left _ hitems, hitem⟩
  | itemsRead category documents =>
      obtain rfl := Option.some.inj hs
      exact ⟨⟨hkept, h.tidy, h.ownIDs, h.seen, h.screens⟩, .refl⟩
  | basket k e currentUser => exact h.basket hok hord hs
  | page k e currentUser => exact h.page hs₀ hok hord hs
  | answered i t => exact h.answered hok hord hs
  | written j ok orderID => exact h.written hok hord hs

theorem AtWork.run (h : w.AtWork formatter s₀) (hs₀ : s₀.Sound)
    (hrun : Run (World.handle formatter) (fun w e => w.Possible e ∧ w.Orderly e)
      w w') : w'.AtWork formatter s₀ ∧ Shop.Run w.shop w'.shop := by
  have hsound : Simulation.Sound
      (Handles (World.handle formatter)
        fun w e => w.Possible e ∧ w.Orderly e)
      Shop.Step World.shop (World.AtWork formatter s₀) := by
    rintro w w' hw ⟨e, ⟨hok, hord⟩, he⟩
    exact hw.handle hs₀ hok hord he
  exact hsound.run hrun h

theorem atWork_start (hs : s₀.Sound) (hids : s₀.OwnIDs)
    (hlines : ∀ uid l d, s₀.line uid l = some d → s₀.Copied d)
    (hcounts : s₀.Counts (0 ≤ ·) (1 ≤ ·)) :
    (start s₀).AtWork formatter s₀ where
  kept := kept_start hlines hcounts
  tidy := Store.tidy_nil hs
  ownIDs := hids
  seen _ h := by
    obtain ⟨_, hitems, -⟩ := h
    cases hitems
  screens _ h := by cases h

/-! ## Runs, written down -/

instance (ref : ItemRef) (uid : String) : Decidable (w.Free ref uid) :=
  inferInstanceAs (Decidable (_ ∧ _))

instance (id : String) : Decidable (w.Unseen id) :=
  inferInstanceAs (Decidable (_ ∧ _ ∧ _))

def mayAsk? (w : World) (uid : String) : BasketEffect → Bool
  | .putOrder order => order.items.isPerm (getOrder w.store uid) &&
      decide ((∀ call ∈ w.calls, call.caller? ≠ some uid) ∧
        ∀ x ∈ w.writes, x.userID ≠ uid)
  | .removeFromBasket _ dbItemID categoryID =>
      decide (w.Free ⟨categoryID, dbItemID⟩ uid)
  | _ => true

def orderly? (w : World) : WorldEvent Date → Bool
  | .basket k e (some uid) => (w.baskets[k]?).all fun screen =>
      (screen.requests e).all (w.mayAsk? uid)
  | .page k (.addTapped row _ true) currentUser =>
      (w.pages[k]?).all fun page => (page.screen.row row).all fun item =>
        currentUser.any fun uid => decide (w.Free ⟨page.category, item.ID⟩ uid)
  | .answered _ t => t.ok && decide (w.Unseen t.autoId)
  | .written _ ok _ => ok
  | _ => true

theorem mayAsk_of_mayAsk? {uid : String} {request : BasketEffect}
    (h : w.mayAsk? uid request = true) : w.MayAsk uid request := by
  cases request with
  | putOrder order =>
      obtain ⟨hperm, hidle⟩ := Bool.and_eq_true_iff.mp h
      exact ⟨List.isPerm_iff.mp hperm, of_decide_eq_true hidle⟩
  | removeFromBasket itemID dbItemID categoryID =>
      have hfree : w.Free ⟨categoryID, dbItemID⟩ uid := of_decide_eq_true h
      exact hfree
  | _ => trivial

theorem orderly_of_orderly? {e : WorldEvent Date}
    (h : w.orderly? e = true) : w.Orderly e := by
  cases e with
  | basket k e currentUser =>
      cases currentUser with
      | none => trivial
      | some uid =>
          intro screen hscreen request hmem
          have hall := (Option.all_eq_true _ _).mp h screen hscreen
          exact mayAsk_of_mayAsk? (List.all_eq_true.mp hall request hmem)
  | page k e currentUser =>
      cases e with
      | addTapped row count isConnected =>
          cases isConnected with
          | false => trivial
          | true =>
              intro page hpage item hitem
              have hall := (Option.all_eq_true _ _).mp h page hpage
              have hrow := (Option.all_eq_true _ _).mp hall item hitem
              obtain ⟨uid, huser, hfree⟩ := (Option.any_eq_true _ _).mp hrow
              exact ⟨uid, huser, of_decide_eq_true hfree⟩
      | _ => trivial
  | answered i t =>
      obtain ⟨hok, hunseen⟩ := Bool.and_eq_true_iff.mp h
      exact ⟨hok, of_decide_eq_true hunseen⟩
  | written j ok orderID => exact h
  | _ => trivial

theorem exists_orderly_run {P : World → Prop} [DecidablePred P]
    (events : List (WorldEvent Date))
    (h : (play (World.handle formatter)
      (fun w e => (w.possible? e && w.orderly? e) = true) events
        (start s₀)).any (fun w => decide (P w)) = true) :
    ∃ w, Run (World.handle formatter) (fun w e => w.Possible e ∧ w.Orderly e)
      (start s₀) w ∧ P w := by
  obtain ⟨w, hrun, hw⟩ := exists_run_of_play events h
  refine ⟨w, hrun.mono fun w e he => ?_, hw⟩
  obtain ⟨hpossible, horderly⟩ := Bool.and_eq_true_iff.mp he
  exact ⟨possible_of_possible? hpossible, orderly_of_orderly? horderly⟩

theorem pricedCamera_sound : pricedCamera.Sound := by
  have hitem : ∀ ref item, pricedCamera.items ref = some item →
      ref = camera ∧ item.name = some "Camera" := by
    intro ref item hi
    simp only [pricedCamera] at hi
    split at hi
    · next href => exact ⟨href, by rw [← Option.some.inj hi]⟩
    · cases hi
  refine ⟨⟨fun ref item hi => ⟨_, (hitem ref item hi).2⟩,
    fun ref ref' item item' hi hi' _ => ?_,
      fun _ _ _ hd => (by cases hd)⟩, fun ref href => ?_,
      fun _ _ _ _ _ _ hd => by cases hd⟩
  · rw [(hitem ref item hi).1, (hitem ref' item' hi').1]
  · obtain ⟨item, hi⟩ := Option.ne_none_iff_exists'.mp href
    exact (hitem ref item hi).1 ▸ camera_proper

theorem pricedCamera_ownIDs : pricedCamera.OwnIDs :=
  ⟨fun _ _ _ hd => (by cases hd), fun _ _ _ _ _ hd => (by cases hd)⟩

/-- Ann orders two of three cameras, and Bob takes the third while her order
is on its way. -/
def camerasGone : List (WorldEvent String) :=
  [.pageOpened "photo",
    .itemsRead "photo" [⟨"cam", [("count", .int 3),
      ("name", .string "Camera"), ("cost", .int 500),
      ("imageURL", .string "camera.png"),
      ("manufacturer", .string "Canon")]⟩],
    .page 0 (.snapshot [⟨"Camera", 500, "Canon", "camera.png", 3, "cam"⟩])
      (some "ann"),
    .page 0 (.addTapped 0 2 true) (some "ann"),
    .answered 0 ⟨true, "l", 0⟩, .answered 0 ⟨true, "l", 0⟩,
    .answered 0 ⟨true, "l", 0⟩, .answered 0 ⟨true, "l", 0⟩,
    .basketOpened, .basketRead "ann",
    .basket 0 (.snapshot [cameraDescribed] "01.06.2020") (some "ann"),
    .basket 0 (.orderTapped true) (some "ann"),
    .page 0 (.addTapped 0 1 true) (some "bob"),
    .answered 1 ⟨true, "b", 0⟩, .written 0 true "o",
    .answered 1 ⟨true, "b", 0⟩, .answered 1 ⟨true, "b", 0⟩,
    .written 0 true "p", .answered 1 ⟨true, "b", 0⟩]

/-- As long as nobody gets in anybody's way: at every moment the documents,
together with what calls have in their hands and orders on their way, are a
shop customers can have brought about from the first one, and when nothing is
under way the documents alone are. -/
theorem shop_of_run (hs : s₀.Sound) (hids : s₀.OwnIDs)
    (hlines : ∀ uid l d, s₀.line uid l = some d → s₀.Copied d)
    (hcounts : s₀.Counts (0 ≤ ·) (1 ≤ ·))
    (h : Run (World.handle formatter) (fun w e => w.Possible e ∧ w.Orderly e)
      (start s₀) w) :
    Shop.Run s₀.shop w.shop ∧
      ((∀ call ∈ w.calls, call.Finished) → w.writes = [] →
        Shop.Run s₀.shop w.store.shop) := by
  have hstart : (start s₀).shop = s₀.shop := Store.shopWith_finished nofun
  have hrun := ((atWork_start hs hids hlines hcounts).run hs h).2
  rw [hstart] at hrun
  refine ⟨hrun, fun hcalls hwrites => ?_⟩
  exact shop_of_finished hcalls hwrites ▸ hrun

theorem shop_of_run_cameras : ∃ w : World,
    Run (World.handle plainDates) (fun w e => w.Possible e ∧ w.Orderly e)
        (start pricedCamera) w ∧
      w.store.stock camera = 0 ∧ w.store.basketOf "ann" camera = 0 ∧
      w.store.basketOf "bob" camera = 1 ∧ w.store.ordered camera = 2 ∧
      Shop.Run pricedCamera.shop w.store.shop := by
  obtain ⟨w, hrun, ⟨hcalls, hwrites⟩, hcounts⟩ :
      ∃ w, Run (World.handle plainDates)
          (fun w e => w.Possible e ∧ w.Orderly e) (start pricedCamera) w ∧
        ((∀ call ∈ w.calls, call.Finished) ∧ w.writes.length = 0) ∧
        w.store.stock camera = 0 ∧ w.store.basketOf "ann" camera = 0 ∧
        w.store.basketOf "bob" camera = 1 ∧ w.store.ordered camera = 2 :=
    exists_orderly_run camerasGone (by decide +kernel)
  obtain ⟨hstock, hann, hbob, hordered⟩ := hcounts
  exact ⟨w, hrun, hstock, hann, hbob, hordered, (shop_of_run
    pricedCamera_sound pricedCamera_ownIDs pricedCamera_lines
    pricedCamera_counts hrun).2 hcalls (List.length_eq_zero_iff.mp hwrites)⟩

end World

end PhoRent
