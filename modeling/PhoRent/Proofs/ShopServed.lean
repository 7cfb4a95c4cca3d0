import Mathlib.Data.Set.Finite.Basic
import PhoRent.Lib.Simulation
import PhoRent.Proofs.Conservation
import PhoRent.Shop.Shop

/-!
# The store is a shop

As long as the calls of the functions and the orders run one after the other,
each to its end, the documents stand for a shop: the stock counts are the
shelf, the lines of a user for an item are what the basket has of it, and every
order document is an order of what was in the basket.

Both directions hold. A complete call is a step of a customer, or it is refused
and changes nothing; and whatever a customer can do there is a complete call
for. For the second the line ids have to be ids the functions accept, which a
backend is free to draw; for the first they may be anything.
-/

namespace PhoRent

open NetworkService Simulation

def OrderDoc.placed (o : OrderDoc) : Shop.Placed ItemRef :=
  ⟨o.startDate, o.countOfDay, o.units⟩

namespace Store

def basketOf (s : Store ℤ) (uid : String) (ref : ItemRef) : ℤ :=
  s.held (linesOf uid ref)

def ordersPlaced (s : Store ℤ) (uid : String) : Multiset (Shop.Placed ItemRef) :=
  Keyed.Coll.total
    (fun k o => if (ofLex k).1 = uid then {OrderDoc.placed o} else 0) s.orders

/-- The shop the documents stand for. -/
def shop (s : Store ℤ) : Shop.State String ItemRef where
  shelf := s.stock
  basket := s.basketOf
  orders := s.ordersPlaced

end Store

/-! ## What the operations are in the shop -/

section Operations

variable {s s' : Store ℤ} {uid l : String} {d : LineDoc ℤ} {ref : ItemRef}
  {item : ItemDoc ℤ} {n : ℤ}

theorem Store.linesOf_bif (u : String) (r : ItemRef) (x : ℤ) :
    (bif Store.linesOf u r uid ref then x else 0) =
      if u = uid ∧ r = ref then x else 0 := by
  simp only [Store.linesOf, eq_comm (a := uid), eq_comm (a := ref)]
  by_cases hu : u = uid <;> by_cases hr : r = ref <;> simp [hu, hr]

/-- Units have moved if the stock count and the lines of one user for one item
say so, and nothing else has changed. -/
theorem Store.shop_move
    (hstock : ∀ r, s'.stock r = if r = ref then s.stock ref - n else s.stock r)
    (hheld : ∀ u r, s'.basketOf u r =
      s.basketOf u r + if u = uid ∧ r = ref then n else 0)
    (horders : s'.orders = s.orders) : s'.shop = s.shop.move uid ref n := by
  refine Shop.State.ext (funext fun r => ?_) (funext fun u => ?_) ?_
  · simp only [Store.shop, Shop.State.move, Function.update_apply]
    exact hstock r
  · funext r
    simp only [Store.shop, Shop.State.move, Function.update_apply, hheld]
    by_cases hu : u = uid
    · by_cases hr : r = ref
      · simp [hu, hr]
      · simp [hu, hr]
    · simp [hu]
  · funext u
    simp only [Store.shop, Shop.State.move, Store.ordersPlaced, horders]

theorem Store.basketOf_updateItem (hu : s.updateItem ref n = some s')
    (u : String) (r : ItemRef) : s'.basketOf u r = s.basketOf u r :=
  Store.held_updateItem hu

theorem AddEnd.shop {s₁ : Store ℤ} (hi : s.items ref = some item)
    (hu : s.updateItem ref (item.count - n) = some s₁)
    (h : AddEnd s ref uid n item s₁ s') :
    s'.shop = s.shop.move uid ref n := by
  have hst := Store.stock_of_items hi
  have hline := Store.updateItem_line hu
  have hstock : ∀ r, s₁.stock r =
      if r = ref then s.stock ref - n else s.stock r := by
    intro r
    rw [Store.stock_updateItem hu, hst]
  cases h with
  | create l hl hnone =>
      have horders : s₁.orders = s.orders := Store.updateItem_orders hu
      refine Store.shop_move hstock (fun u r => ?_) horders
      rw [Store.basketOf, Store.held_setLine_new ((hline uid l).trans hl),
        ← Store.basketOf, Store.basketOf_updateItem hu]
      exact congrArg _ (Store.linesOf_bif u r n)
  | update l d hl href =>
      have horders : s₁.orders = s.orders := Store.updateItem_orders hu
      refine Store.shop_move hstock (fun u r => ?_) horders
      rw [Store.basketOf, Store.held_setLine_count ((hline uid l).trans hl),
        ← Store.basketOf, Store.basketOf_updateItem hu, href,
        add_sub_cancel_left, Store.linesOf_bif]

theorem Store.basketOf_line (hone : s.AtMostOneLine uid d.ref)
    (hl : s.line uid l = some d) : s.basketOf uid d.ref = d.count := by
  rw [basketOf, held_eq_single hl, linesOf]
  · simp
  · intro u l' d' hd' hp
    simp only [linesOf, Bool.and_eq_true, decide_eq_true_eq] at hp
    obtain ⟨rfl, href⟩ := hp
    exact ⟨rfl, hone l' l d' d hd' hl href rfl⟩

theorem Store.basketOf_eq_zero
    (h : ∀ l d, s.line uid l = some d → d.ref ≠ ref) :
    s.basketOf uid ref = 0 := by
  rw [basketOf, held]
  refine Keyed.Coll.total_eq_zero _ fun k d hd => ?_
  by_cases hk : (ofLex k).1 = uid
  · have hne : d.ref ≠ ref := h (ofLex k).2 d (hk ▸ hd)
    simp [linesOf, hne]
  · simp [linesOf, hk]

theorem shop_restock (hone : s.AtMostOneLine uid d.ref)
    (hl : s.line uid l = some d) (hi : s.items d.ref = some item)
    (hu : (s.deleteLine uid l).updateItem d.ref (item.count + d.count) =
      some s') : s'.shop = s.shop.putBack uid d.ref := by
  have hst := Store.stock_of_items hi
  have hd : s.shop.basket uid d.ref = d.count := Store.basketOf_line hone hl
  rw [Shop.State.putBack, hd]
  refine Store.shop_move (fun r => ?_) (fun u r => ?_) ?_
  · rw [Store.stock_updateItem hu, hst, sub_neg_eq_add]
    rfl
  · rw [Store.basketOf_updateItem hu, Store.basketOf, Store.held_deleteLine hl,
      ← Store.basketOf, sub_eq_add_neg, Store.linesOf_bif]
    split <;> simp
  · rw [Store.updateItem_orders hu]
    rfl

theorem basketOf_putOrder {orderID : String} {order : Order}
    {ws : List PutWrite} (hitems : order.items.Perm (getOrder s uid))
    (hws : ws.Perm (NetworkService.putOrder (some uid) order))
    (u : String) (r : ItemRef) :
    (answerAll uid orderID (fun _ => true) s ws).basketOf u r =
      if u = uid then 0 else s.basketOf u r := by
  have hrest : (answerAll uid orderID (fun _ => true) s ws).held
      (Store.linesOf u r) = _ :=
    Keyed.Coll.total_of_get_ite _ (fun k => ¬ (ofLex k).1 = uid)
      fun k => by
        rw [ite_not]
        exact line_putOrder hitems hws (ofLex k).1 (ofLex k).2
  rw [Store.basketOf, hrest]
  split
  · next hu =>
      refine Keyed.Coll.total_eq_zero _ fun k d _ => ?_
      by_cases hk : (ofLex k).1 = uid <;> simp [Store.linesOf, hk, hu]
  · next hu =>
      rw [Store.basketOf, Store.held]
      refine congrArg (fun f => Keyed.Coll.total f s.basket) ?_
      funext k d
      by_cases hk : (ofLex k).1 = uid
      · simp [Store.linesOf, hk, Ne.symm hu]
      · simp [hk]

/-- The order's writes make the basket an order. -/
theorem shop_putOrder {orderID : String} {order : Order} {ws : List PutWrite}
    (hitems : order.items.Perm (getOrder s uid))
    (hws : ws.Perm (NetworkService.putOrder (some uid) order))
    (hfresh : s.orders.get (userKey uid orderID) = none) :
    (answerAll uid orderID (fun _ => true) s ws).shop =
      s.shop.place uid order.date order.countOfDay := by
  have hdoc : ∀ data, .addDocument data ∈ ws ↔ data = .ofOrder order := by
    intro data
    rw [hws.mem_iff]
    simp [NetworkService.putOrder]
  have horders : (answerAll uid orderID (fun _ => true) s ws).orders = _ :=
    orders_answerAll (.ofOrder order) ws s fun data h => (hdoc data).mp h
  rw [if_pos ⟨(hdoc _).mpr rfl, rfl⟩] at horders
  have hplaced : (OrderDoc.ofOrder order).placed =
      ⟨order.date, order.countOfDay, s.basketOf uid⟩ := by
    rw [OrderDoc.placed]
    congr 1
    funext r
    exact units_ofOrder hitems r
  refine Shop.State.ext ?_ (funext fun u => ?_) (funext fun u => ?_)
  · funext r
    simp only [Store.shop, Shop.State.place, Store.stock, items_answerAll]
  · funext r
    simp only [Store.shop, Shop.State.place, Function.update_apply,
      basketOf_putOrder hitems hws]
    split <;> rfl
  · simp only [Store.shop, Store.ordersPlaced, horders, Shop.State.place,
      Function.update_apply]
    rw [Keyed.Coll.total_put_new _ _ hfresh, hplaced]
    by_cases hu : u = uid
    · subst hu
      simp [userKey]
    · simp [userKey, hu, Ne.symm hu]

end Operations

/-! ## Complete calls -/

section Served

variable {s s' : Store ℤ} {ref : ItemRef} {uid : String} {n : ℤ}
  {item : ItemDoc ℤ}

/-- An add is refused for want of units, or its units have moved. -/
theorem add_shop (hs : s.Sound) (hn : 1 ≤ n) (hi : s.items ref = some item) :
    Ends .all (s, .add (.getItem (.of ref uid n))) fun z =>
      (item.count < n ∧ z.1 = s) ∨
        (n ≤ item.count ∧ z.1.shop = s.shop.move uid ref n) := by
  intro z hr hz
  have hends := add_ends hs.named (hs.single uid ref) hi z hr hz
  have haccepted : ∀ s₁, n ≤ item.count →
      s.updateItem ref (item.count - n) = some s₁ → z.1.items = s₁.items →
      z.1.shop = s.shop.move uid ref n := by
    intro s₁ hle hu hitems
    rcases hends with heq | ⟨s₂, hu₂, hend⟩
    · have hst : z.1.stock ref = item.count - n := by
        rw [Store.stock, hitems, ← Store.stock, Store.stock_updateItem hu,
          if_pos rfl]
      rw [heq, Store.stock_of_items hi] at hst
      omega
    · exact hend.shop hi hu₂
  have hout := add_outcome z hr hz
  cases hout with
  | absent hi' =>
      rw [hi] at hi'
      cases hi'
  | refused hi' hlt =>
      obtain rfl := Option.some.inj (hi.symm.trans hi')
      exact Or.inl ⟨hlt, rfl⟩
  | nameless hi' hle hname hu =>
      obtain ⟨name, hname'⟩ := hs.named.named ref _ hi'
      rw [hname] at hname'
      cases hname'
  | created hi' hle hname hu hq id hid =>
      obtain rfl := Option.some.inj (hi.symm.trans hi')
      exact Or.inr ⟨hle, haccepted _ hle hu rfl⟩
  | updated hi' hle hname hu hq hitems horders hlines hk =>
      obtain rfl := Option.some.inj (hi.symm.trans hi')
      exact Or.inr ⟨hle, haccepted _ hle hu hitems⟩

/-- A removal does nothing without its line, or the line is put back. -/
theorem delete_shop (hs : s.Sound) {req : DeleteReq}
    (hreq : ∀ d, s.line req.uid req.itemID = some d →
      req.ref? = some d.ref) :
    Ends .all (s, .delete (.getLine req)) fun z =>
      (s.line req.uid req.itemID = none ∧ z.1 = s) ∨
        ∃ d, s.line req.uid req.itemID = some d ∧
          z.1.shop = s.shop.putBack req.uid d.ref := by
  intro z hr hz
  have hout := delete_outcome z hr hz
  cases hout with
  | absent hl => exact Or.inl ⟨hl, rfl⟩
  | nowhere hl href =>
      rw [hreq _ hl] at href
      cases href
  | lost hl href hi =>
      obtain ⟨item, hitem, -⟩ := hs.named.line _ _ _ hl
      obtain rfl := Option.some.inj ((hreq _ hl).symm.trans href)
      rw [hi] at hitem
      cases hitem
  | restocked hl href hi hu =>
      obtain rfl := Option.some.inj ((hreq _ hl).symm.trans href)
      exact Or.inr ⟨_, hl, shop_restock (hs.single _ _) hl hi hu⟩

theorem Store.Sound.ref?_decode (hs : s.Sound) {l : String} {d : LineDoc ℤ}
    (hd : s.line uid l = some d) {item : BasketItem}
    (hitem : item.categoryID = d.categoryID ∧ item.dbItemID = d.itemID) :
    DeleteReq.ref? ⟨uid, l, docPath (.str item.categoryID),
      docPath (.str item.dbItemID)⟩ = some d.ref := by
  have hpc : DocID d.categoryID := (hs.ref hd).1
  have hpi : DocID d.itemID := (hs.ref hd).2
  rw [hitem.1, hitem.2, docPath_str hpc, docPath_str hpi]
  rfl

/-- Every complete call is a step of a customer, or changes nothing. -/
theorem serves_sound : Sound Serves Shop.Step Store.shop Store.Sound := by
  intro s s' hs h
  refine ⟨(serves_units hs h).1, ?_⟩
  cases h with
  | add ref uid n hn hitem hcall hrun hfin =>
      obtain ⟨item, hi⟩ := Option.ne_none_iff_exists'.mp hitem
      rw [addItemInBasket_of (hs.proper ref hitem)] at hcall
      obtain ⟨-, rfl⟩ := Handled.returned.inj hcall
      rcases add_shop hs hn hi _ hrun hfin with ⟨-, heq⟩ | ⟨hle, hshop⟩
      · obtain rfl : s' = s := heq
        exact .refl
      · have hshelf : n ≤ s.shop.shelf ref :=
          hle.trans_eq (Store.stock_of_items hi).symm
        rw [hshop]
        exact .single (.add uid ref n hn hshelf)
  | delete uid item hid hitem hcall hrun hfin =>
      rw [deleteItemFromBasket] at hcall
      simp only [docPath_str hid] at hcall
      obtain ⟨-, rfl⟩ := Handled.returned.inj hcall
      rcases delete_shop hs (fun d hd => hs.ref?_decode hd (hitem d hd)) _
        hrun hfin with ⟨-, heq⟩ | ⟨d, -, hshop⟩
      · obtain rfl : s' = s := heq
        exact .refl
      · rw [hshop]
        exact .single (.remove uid d.ref)
  | putOrder uid orderID order hitems ws hws hfresh =>
      rw [shop_putOrder hitems hws hfresh]
      exact .single (.order uid order.date order.countOfDay)

end Served

/-! ## Calls for whatever a customer does -/

section Calls

variable {s s' : Store ℤ} {x : Store ℤ × Call ℤ} {Q : Store ℤ × Call ℤ → Prop}

theorem exists_ends : (∃ z, RunAlone .all x z ∧ z.2.Finished ∧ Q z) ↔
    ¬ Ends .all x fun z => ¬ Q z := by
  simp [Ends]

theorem exists_docID (avoid : List String) : ∃ id, DocID id ∧ id ∉ avoid := by
  have hinf : {id : String | DocID id}.Infinite := by
    refine Set.infinite_of_injective_forall_mem
      (f := fun n : ℕ => String.ofList (List.replicate (n + 1) 'a'))
      (fun m n hmn => ?_) fun n => ⟨by simp, by simp⟩
    simpa using congrArg String.length hmn
  obtain ⟨id, hid, hnew⟩ := hinf.exists_notMem_finset avoid.toFinset
  exact ⟨id, hid, by simpa using hnew⟩

theorem Store.exists_fresh_docID (s : Store ℤ) :
    ∃ id, DocID id ∧ ∀ u, s.line u id = none := by
  obtain ⟨id, hid, hnew⟩ :=
    exists_docID (s.basket.docs.map fun e => (ofLex e.1).2)
  exact ⟨id, hid, fun u =>
    Store.line_of_notMem (by rwa [List.mem_toFinset]) u⟩

theorem exists_add_end (hs : s.LineIDs) (ref : ItemRef) (uid : String)
    (n : ℤ) : ∃ z, RunAlone .all (s, .add (.getItem (.of ref uid n))) z ∧
      z.2.Finished ∧ z.1.LineIDs := by
  rw [exists_ends, ends_add_getItem]
  simp only [Answers.all_getItem, if_true, AddReq.of_ref]
  cases hi : s.items ref with
  | none =>
      rw [AddCall.onItem, ends_add_failed]
      exact not_not.mpr hs
  | some item =>
      rw [AddCall.onItem_of]
      split
      swap
      · rw [ends_add_failed]
        exact not_not.mpr hs
      obtain ⟨s₁, hu⟩ := Store.exists_updateItem hi (item.count - n)
      have hs₁ : s₁.LineIDs := fun u l d hd =>
        hs u l d (Store.updateItem_line hu u l ▸ hd)
      rw [ends_add_updateStock]
      simp only [Answers.all_updateStock, if_true, AddReq.of_ref, hu]
      cases hname : item.name with
      | none =>
          simp only [AddCall.onStockUpdated, AddReq.of, hname]
          rw [ends_add_failed]
          exact not_not.mpr hs₁
      | some name =>
          rw [AddCall.onStockUpdated_of hname, ends_add_queryBasket]
          simp only [Answers.all_queryBasket, if_true]
          cases hq : s₁.linesNamed uid name with
          | nil =>
              simp only [AddCall.onBasket, Count.storable_int, if_true,
                ends_add_setLine, Answers.all_setLine]
              obtain ⟨id, hid, hnew⟩ := s₁.exists_fresh_docID
              intro h
              refine h id hnew fun u l d hd => ?_
              rcases Store.line_of_setLine hd with ⟨-, rfl, -⟩ | hd
              · exact hid
              · exact hs₁ u l d hd
          | cons e rest =>
              rw [AddCall.onBasket, ← hq]
              · intro h
                have hl : ∀ e ∈ (s₁.linesNamed uid name).map
                    fun e => (e.1, Count.add e.2.count n),
                    s₁.line uid e.1 ≠ none := by
                  intro e he
                  obtain ⟨e', he', rfl⟩ := List.mem_map.mp he
                  rw [(Store.mem_linesNamed.mp he').1]
                  simp
                obtain ⟨z, hr, hz⟩ := exists_updatesEnd .all (.of ref uid n)
                  uid (by simp [hq]) hl none
                have hend := ends_updateLines .all (.of ref uid n) none
                  (by simp [hq]) (by simpa [Function.comp_def] using
                    s₁.linesNamed_nodup uid name) hl z hr hz
                -- the updates write lines that were there
                refine h z hr hz fun u l d hd => ?_
                cases hold : s₁.line u l with
                | some d₀ => exact hs₁ u l d₀ hold
                | none =>
                    rw [hend.lines.2 u l fun hu e he hel => ?_, hold] at hd
                    · cases hd
                    · exact absurd (hu ▸ hel ▸ hold) (hl e he)
              · simp

theorem exists_delete_end (s : Store ℤ) (req : DeleteReq) :
    ∃ z, RunAlone .all (s, .delete (.getLine req)) z ∧ z.2.Finished := by
  have hex := exists_ends (x := (s, .delete (.getLine req)))
    (Q := fun _ => True)
  simp only [and_true, not_true_eq_false] at hex
  rw [hex, ends_delete_getLine]
  simp only [Answers.all_getLine, if_true]
  cases s.line req.uid req.itemID with
  | none =>
      rw [DeleteCall.onLine, ends_delete_failed]
      exact id
  | some d =>
      simp only [DeleteCall.onLine, ends_delete_deleteLine,
        Answers.all_deleteLine, if_true]
      cases href : req.ref? with
      | none =>
          simp only [DeleteCall.onDeleted, href, ends_delete_failed]
          exact id
      | some ref =>
          simp only [DeleteCall.onDeleted, href, ends_delete_getItem,
            Answers.all_getItem, if_true, Store.deleteLine_items]
          cases hi : s.items ref with
          | none =>
              rw [DeleteCall.onItem, ends_delete_failed]
              exact id
          | some item =>
              obtain ⟨s', hu⟩ := Store.exists_updateItem
                (s := s.deleteLine req.uid req.itemID) hi
                (Count.add item.count d.count)
              simp only [DeleteCall.onItem, ends_delete_updateStock,
                Answers.all_updateStock, if_true, hu, ends_delete_done]
              exact id

/-- Every step of a customer is a complete call. -/
theorem serves_complete : Complete Serves Shop.Step Store.shop
    fun s => s.Sound ∧ s.LineIDs := by
  intro s a hJ h
  obtain ⟨hs, hids⟩ := hJ
  -- what a call leaves is sound in any case
  have hserved : ∀ s', Serves s s' → s'.LineIDs → s'.shop = a →
      ∃ s', Relation.ReflTransGen Serves s s' ∧ (s'.Sound ∧ s'.LineIDs) ∧
        s'.shop = a :=
    fun s' h hids hshop =>
      ⟨s', .single h, ⟨(serves_units hs h).1, hids⟩, hshop⟩
  cases h with
  | add uid ref n hn hle =>
      have hitem : s.items ref ≠ none := by
        intro hnone
        have hzero : s.shop.shelf ref = 0 := by
          simp only [Store.shop, Store.stock, hnone, Option.map_none,
            Option.getD_none]
        omega
      obtain ⟨item, hi⟩ := Option.ne_none_iff_exists'.mp hitem
      obtain ⟨z, hr, hz, hzids⟩ := exists_add_end hids ref uid n
      have hcall := addItemInBasket_of (hs.proper ref hitem) uid n
      refine hserved z.1 (.add ref uid n hn hitem hcall hr hz) hzids ?_
      rcases add_shop hs hn hi z hr hz with ⟨hlt, -⟩ | ⟨-, hshop⟩
      · have hst : s.shop.shelf ref = item.count := Store.stock_of_items hi
        omega
      · exact hshop
  | remove uid ref =>
      by_cases hex : ∃ l d, s.line uid l = some d ∧ d.ref = ref
      · obtain ⟨l, d, hl, rfl⟩ := hex
        have hid := hids uid l d hl
        have hitem : ∀ d', s.line uid (d.decode l).itemID = some d' →
            (d.decode l).categoryID = d'.categoryID ∧
              (d.decode l).dbItemID = d'.itemID := by
          intro d' hd'
          obtain rfl := Option.some.inj (hl.symm.trans hd')
          exact ⟨rfl, rfl⟩
        have hreq := fun d' hd' => hs.ref?_decode hd' (hitem d' hd')
        obtain ⟨z, hr, hz⟩ := exists_delete_end s ⟨uid, l,
          docPath (.str (d.decode l).categoryID),
          docPath (.str (d.decode l).dbItemID)⟩
        have hcall : deleteItemFromBasket (V := ℤ) (some
            ⟨.str (d.decode l).itemID, .str (d.decode l).categoryID,
              .str (d.decode l).dbItemID⟩) (some uid) = .returned .undefined
                (.delete (.getLine ⟨uid, l,
                  docPath (.str (d.decode l).categoryID),
                  docPath (.str (d.decode l).dbItemID)⟩)) := by
          simp only [deleteItemFromBasket, LineDoc.decode_itemID,
            docPath_str hid]
        refine hserved z.1 (.delete uid (d.decode l) hid hitem hcall hr hz)
          (fun u l' d' hd' => hids u l' d' ?_) ?_
        · rcases delete_ends hs.named hreq z hr hz with heq | ⟨_, _, _, _, hu⟩
          · exact heq ▸ hd'
          · rw [Store.updateItem_line hu] at hd'
            exact Store.line_of_deleteLine hd'
        · rcases delete_shop hs hreq z hr hz with ⟨hnone, -⟩ | ⟨d', hd', hshop⟩
          · rw [hl] at hnone
            cases hnone
          · obtain rfl := Option.some.inj (hl.symm.trans hd')
            exact hshop
      · -- without a line there is nothing to put back
        have hzero : s.shop.basket uid ref = 0 :=
          Store.basketOf_eq_zero fun l d hl href => hex ⟨l, d, hl, href⟩
        refine ⟨s, .refl, ⟨hs, hids⟩, ?_⟩
        rw [Shop.State.putBack, hzero, neg_zero, Shop.State.move_zero]
  | order uid date days =>
      obtain ⟨orderID, hfresh⟩ : ∃ id, s.orders.get (userKey uid id) = none := by
        obtain ⟨id, hid⟩ := Infinite.exists_notMem_finset
          (s.orders.docs.map fun e => (ofLex e.1).2).toFinset
        refine ⟨id, ?_⟩
        cases hget : s.orders.get (userKey uid id) with
        | none => rfl
        | some o =>
            refine absurd ?_ hid
            rw [List.mem_toFinset, List.mem_map]
            exact ⟨_, Keyed.Coll.mem_docs_of_get hget, rfl⟩
      let order : Order := ⟨"", date, days, "", getOrder s uid⟩
      have hitems : order.items.Perm (getOrder s uid) := .refl _
      refine hserved _ (.putOrder uid orderID order (.refl _)
        (NetworkService.putOrder (some uid) order) (.refl _) hfresh)
        (fun u l d hd => hids u l d ?_)
        (shop_putOrder hitems (.refl _) hfresh)
      rw [line_putOrder hitems (.refl _)] at hd
      split at hd
      · cases hd
      · exact hd

end Calls

/-! ## Runs -/

/-- The shops the stores reached stand for are those customers can bring
about: nothing else happens, and nothing is out of reach. -/
theorem served_iff {s : Store ℤ} (hs : s.Sound) (hids : s.LineIDs)
    {a : Shop.State String ItemRef} :
    (∃ s', Relation.ReflTransGen Serves s s' ∧ s'.shop = a) ↔
      Shop.Run s.shop a :=
  reaches_iff serves_sound serves_complete hs ⟨hs, hids⟩

section Cameras

variable {n : ℤ}

theorem sound_cameras : (cameras n).Sound :=
  ⟨cameras_wellNamed n, cameras_proper n, fun _ _ _ _ _ _ hd => by cases hd⟩

theorem cameras_lineIDs : (cameras n).LineIDs := fun _ _ _ hd => by cases hd

theorem cameras_solvent : Shop.Solvent (cameras 5).shop := by
  refine ⟨fun ref => ?_, fun uid ref => ?_, fun uid o ho => ?_⟩
  · simp only [Store.shop, Store.stock, cameras]
    split <;> decide
  · exact le_refl 0
  · cases ho

/-- Ann rents two of five cameras for three days. -/
theorem cameras_rented : ∃ s, Relation.ReflTransGen Serves (cameras 5) s ∧
    s.shop = ((cameras 5).shop.move "ann" camera 2).place "ann" "01.06.2020" 3 := by
  have hshelf : 2 ≤ (cameras (5 : ℤ)).stock camera := by decide
  obtain ⟨s, hrun, -, hs⟩ := serves_complete.run
    (.tail (.single (.add (s := (cameras 5).shop) "ann" camera 2 (by decide)
      hshelf)) (.order "ann" "01.06.2020" 3))
    ⟨sound_cameras, cameras_lineIDs⟩
  exact ⟨s, hrun, hs⟩

end Cameras

theorem served_iff_cameras : Shop.Run (cameras 5).shop
    (((cameras 5).shop.move "ann" camera 2).place "ann" "01.06.2020" 3) :=
  (served_iff sound_cameras cameras_lineIDs).mp cameras_rented

/-- Served one after another, customers never get more than there is: no stock
count, no basket and no order has a negative number of units of anything. And
an order once placed stays what it is. -/
theorem served_solvent {s s' : Store ℤ} (hs : s.Sound)
    (h : Shop.Solvent s.shop) (hrun : Relation.ReflTransGen Serves s s') :
    Shop.Solvent s'.shop ∧ ∀ uid, s.ordersPlaced uid ≤ s'.ordersPlaced uid :=
  h.run (serves_sound.run hrun hs).2

theorem served_solvent_cameras : ∃ s,
    Relation.ReflTransGen Serves (cameras 5) s ∧
      s.shop = ((cameras 5).shop.move "ann" camera 2).place "ann" "01.06.2020" 3 ∧
      Shop.Solvent s.shop ∧
      ∀ uid, (cameras 5).ordersPlaced uid ≤ s.ordersPlaced uid := by
  obtain ⟨s, hrun, hs⟩ := cameras_rented
  exact ⟨s, hrun, hs, served_solvent sound_cameras cameras_solvent hrun⟩

end PhoRent
