import PhoRent.App.World
import PhoRent.Proofs.InHand

/-!
# The store with work in progress

The documents by themselves say little while calls are under way and the
writes of an order are being answered. Together with what the calls have in
their hands, and with the orders sent out taken for placed, they are a shop at
any moment. No two calls may be about the same item for this, and no call may
work for a user whose order is on its way.
-/

namespace PhoRent

open NetworkService

def SentWrite.outOfBasket (s : Store ℤ) (uid : String) (ref : ItemRef)
    (x : SentWrite) : ℤ :=
  match x.write with
  | .addDocument _ => 0
  | .delete l =>
      match s.line x.userID l with
      | some d => if uid = x.userID ∧ ref = d.ref then d.count else 0
      | none => 0

def SentWrite.placing (uid : String) (x : SentWrite) :
    Multiset (Shop.Placed ItemRef) :=
  match x.write with
  | .addDocument data => if x.userID = uid then {data.placed} else 0
  | .delete _ => 0

def SentWrite.line? (x : SentWrite) : Option (String × String) :=
  match x.write with
  | .addDocument _ => none
  | .delete l => some (x.userID, l)

theorem SentWrite.fst_of_line? {x : SentWrite} {e : String × String}
    (h : x.line? = some e) : e.1 = x.userID := by
  unfold SentWrite.line? at h
  split at h
  · cases h
  · rw [← Option.some.inj h]

namespace Store

variable {s s' : Store ℤ} {calls calls' : List (Call ℤ)}
  {writes writes' : List SentWrite} {k k' : Call ℤ} {uid : String}

/-- The shop the documents and the work in progress stand for. -/
def shopWith (s : Store ℤ) (calls : List (Call ℤ)) (writes : List SentWrite) :
    Shop.State String ItemRef where
  shelf ref := s.stock ref + (calls.map (Call.toShelf ref)).sum
  basket uid ref := s.basketOf uid ref +
    (calls.map (Call.toBasket uid ref)).sum -
      (writes.map (SentWrite.outOfBasket s uid ref)).sum
  orders uid := s.ordersPlaced uid +
    (writes.map (SentWrite.placing uid)).sum

theorem shopWith_perm (hc : calls.Perm calls') (hw : writes.Perm writes') :
    s.shopWith calls writes = s.shopWith calls' writes' := by
  refine Shop.State.ext (funext fun ref => ?_) (funext fun u => ?_)
    (funext fun u => ?_)
  · simp only [shopWith, (hc.map _).sum_eq]
  · funext ref
    simp only [shopWith, (hc.map _).sum_eq, (hw.map _).sum_eq]
  · simp only [shopWith, (hw.map _).sum_eq]

/-- What the work in progress relies on. -/
structure Tidy (s : Store ℤ) (calls : List (Call ℤ))
    (writes : List SentWrite) : Prop where
  sound : s.Sound
  inHand : ∀ k ∈ calls, k.InHand s
  apart : (calls.filterMap Call.item?).Nodup
  users : ∀ k ∈ calls, ∀ x ∈ writes, k.caller? ≠ some x.userID
  deletes : (writes.filterMap SentWrite.line?).Nodup

theorem Tidy.perm (h : s.Tidy calls writes) (hc : calls.Perm calls')
    (hw : writes.Perm writes') : s.Tidy calls' writes' where
  sound := h.sound
  inHand k hk := h.inHand k (hc.mem_iff.mpr hk)
  apart := (hc.filterMap _).nodup_iff.mp h.apart
  users k hk x hx := h.users k (hc.mem_iff.mpr hk) x (hw.mem_iff.mpr hx)
  deletes := (hw.filterMap _).nodup_iff.mp h.deletes

theorem tidy_nil (hs : s.Sound) : s.Tidy [] [] :=
  ⟨hs, nofun, List.nodup_nil, nofun, List.nodup_nil⟩

theorem Tidy.others (h : s.Tidy (k :: calls) writes) {ref : ItemRef}
    (hk : k.item? = some ref) : ∀ c ∈ calls, c.item? ≠ some ref := by
  intro c hc hitem
  have hapart := h.apart
  rw [List.filterMap_cons_some hk, List.nodup_cons] at hapart
  exact hapart.1 (List.mem_filterMap.mpr ⟨c, hc, hitem⟩)

theorem sum_toShelf_eq_zero {ref : ItemRef}
    (h : ∀ c ∈ calls, c.item? ≠ some ref) :
    (calls.map (Call.toShelf ref)).sum = 0 := by
  refine List.sum_eq_zero fun x hx => ?_
  obtain ⟨c, hc, rfl⟩ := List.mem_map.mp hx
  exact Call.toShelf_of_ne (h c hc)

theorem sum_toBasket_eq_zero {ref : ItemRef}
    (h : ∀ c ∈ calls, c.item? ≠ some ref) :
    (calls.map (Call.toBasket uid ref)).sum = 0 := by
  refine List.sum_eq_zero fun x hx => ?_
  obtain ⟨c, hc, rfl⟩ := List.mem_map.mp hx
  exact Call.toBasket_of_ne (h c hc)

theorem sum_outOfBasket_eq_zero {ref : ItemRef}
    (h : ∀ x ∈ writes, x.userID ≠ uid) :
    (writes.map (SentWrite.outOfBasket s uid ref)).sum = 0 := by
  refine List.sum_eq_zero fun n hn => ?_
  obtain ⟨x, hx, rfl⟩ := List.mem_map.mp hn
  unfold SentWrite.outOfBasket
  split
  · rfl
  · split
    · exact if_neg fun hu => h x hx hu.1.symm
    · rfl

/-! ## Calls -/

theorem Tidy.called (h : s.Tidy calls writes) (hk : k.InHand s)
    (hitem : ∀ ref, k.item? = some ref → ∀ c ∈ calls, c.item? ≠ some ref)
    (husers : ∀ x ∈ writes, k.caller? ≠ some x.userID) :
    s.Tidy (k :: calls) writes := by
  refine ⟨h.sound, ?_, ?_, ?_, h.deletes⟩
  · intro c hc
    rcases List.mem_cons.mp hc with rfl | hc
    · exact hk
    · exact h.inHand c hc
  · cases hi : k.item? with
    | none => rw [List.filterMap_cons_none hi]; exact h.apart
    | some ref =>
        rw [List.filterMap_cons_some hi, List.nodup_cons]
        refine ⟨fun hm => ?_, h.apart⟩
        obtain ⟨c, hc, hci⟩ := List.mem_filterMap.mp hm
        exact hitem ref hi c hc hci
  · intro c hc x hx
    rcases List.mem_cons.mp hc with rfl | hc
    · exact husers x hx
    · exact h.users c hc x hx

theorem shopWith_cons (hshelf : ∀ ref, k.toShelf ref = 0)
    (hbasket : ∀ u ref, k.toBasket u ref = 0) :
    s.shopWith (k :: calls) writes = s.shopWith calls writes := by
  simp only [shopWith, List.map_cons, List.sum_cons, hshelf, hbasket, zero_add]

/-- Units a step has moved have moved in the shop. -/
theorem shopWith_moves {ref : ItemRef} {n : ℤ}
    (h : Call.Moves uid ref n s k s' k')
    (hlines : ∀ x ∈ writes, ∀ l, s'.line x.userID l = s.line x.userID l) :
    s'.shopWith (k' :: calls) writes =
      (s.shopWith (k :: calls) writes).move uid ref n := by
  have hout : ∀ u r, writes.map (SentWrite.outOfBasket s' u r) =
      writes.map (SentWrite.outOfBasket s u r) := fun u r =>
    List.map_congr_left fun x hx => by
      simp only [SentWrite.outOfBasket, hlines x hx]
  refine Shop.State.ext (funext fun r => ?_) (funext fun u => ?_) ?_
  · have hr := h.shelf r
    simp only [shopWith, Shop.State.move, Function.update_apply, List.map_cons,
      List.sum_cons]
    split at hr
    · next heq => subst heq; rw [if_pos rfl]; omega
    · next hne => rw [if_neg hne]; omega
  · funext r
    have hur := h.basket u r
    simp only [shopWith, Shop.State.move, Function.update_apply, List.map_cons,
      List.sum_cons, hout]
    by_cases hu : u = uid
    · by_cases hr : r = ref
      · subst hu hr
        simp only [and_self, if_true, Function.update_self] at hur ⊢
        omega
      · subst hu
        rw [if_pos rfl, Function.update_of_ne hr]
        simp only [hr, and_false, if_false] at hur
        omega
    · simp only [hu, false_and, if_false] at hur ⊢
      omega
  · funext u
    simp only [shopWith, Shop.State.move, ordersPlaced, h.orders]

/-- A step of a call is a step of a customer, or none. -/
theorem Tidy.answered (h : s.Tidy (k :: calls) writes) {id : String}
    (ha : Call.Advances id s k s' k')
    (hids : ∀ c ∈ calls, c.lineID? ≠ some id) :
    s'.Tidy (k' :: calls) writes ∧
      Relation.ReflTransGen Shop.Step (s.shopWith (k :: calls) writes)
        (s'.shopWith (k' :: calls) writes) := by
  have husers := h.users k List.mem_cons_self
  constructor
  · refine ⟨ha.sound, fun c hc => ?_, ?_, fun c hc x hx => ?_, h.deletes⟩
    · rcases List.mem_cons.mp hc with rfl | hc
      · exact ha.inHand
      · exact (h.inHand c (List.mem_cons_of_mem _ hc)).beside ha.beside
          (fun r hr hk => h.others hk c hc hr) (hids c hc)
    · cases hi : k'.item? with
      | none =>
          rw [List.filterMap_cons_none hi]
          exact h.apart.sublist ((List.sublist_cons_self k calls).filterMap _)
      | some ref =>
          rw [List.filterMap_cons_some hi,
            ← List.filterMap_cons_some (ha.item ref hi)]
          exact h.apart
    · rcases List.mem_cons.mp hc with rfl | hc
      · exact fun hu => husers x hx (ha.caller _ hu)
      · exact h.users c (List.mem_cons_of_mem _ hc) x hx
  · obtain ⟨uid, ref, n, hmoves, hmay⟩ := ha.moves
    rw [shopWith_moves hmoves fun x hx l => ha.beside.users _ l (husers x hx)]
    rcases hmay with rfl | hmay
    · rw [Shop.State.move_zero]
    have hothers := h.others hmay.item
    have hshelf : (s.shopWith (k :: calls) writes).shelf ref = s.stock ref := by
      simp only [shopWith, List.map_cons, List.sum_cons, hmay.shelf,
        sum_toShelf_eq_zero hothers, add_zero]
    have hbasket : (s.shopWith (k :: calls) writes).basket uid ref =
        s.basketOf uid ref := by
      have hown : ∀ x ∈ writes, x.userID ≠ uid := by
        rintro x hx rfl
        exact husers x hx hmay.caller
      simp only [shopWith, List.map_cons, List.sum_cons, hmay.basket,
        sum_toBasket_eq_zero hothers, sum_outOfBasket_eq_zero hown, add_zero,
        sub_zero]
    rcases hmay.units with ⟨hn, hle⟩ | hn
    · exact .single (.add uid ref n hn (hshelf ▸ hle))
    · rw [hn, ← hbasket]
      exact .single (.remove uid ref)

/-! ## Orders -/

/-- Calls of others have nothing of the user's in hand. -/
theorem Tidy.sum_toBasket (h : s.Tidy calls writes)
    (hcalls : ∀ k ∈ calls, k.caller? ≠ some uid) (ref : ItemRef) :
    (calls.map (Call.toBasket uid ref)).sum = 0 := by
  refine List.sum_eq_zero fun x hx => ?_
  obtain ⟨k, hk, rfl⟩ := List.mem_map.mp hx
  exact (h.inHand k hk).toBasket_of_ne (hcalls k hk)

/-- What is in the basket of a user for whom nothing is under way. -/
theorem Tidy.basket_eq (h : s.Tidy calls writes)
    (hcalls : ∀ k ∈ calls, k.caller? ≠ some uid)
    (hwrites : ∀ x ∈ writes, x.userID ≠ uid) (ref : ItemRef) :
    (s.shopWith calls writes).basket uid ref = s.basketOf uid ref := by
  simp only [shopWith, h.sum_toBasket hcalls, sum_outOfBasket_eq_zero hwrites,
    add_zero, sub_zero]

def sent (uid : String) (order : Order) : List SentWrite :=
  (NetworkService.putOrder (some uid) order).map (⟨uid, ·⟩)

theorem sent_eq (uid : String) (order : Order) : sent uid order =
    ⟨uid, .addDocument (.ofOrder order)⟩ ::
      order.items.map fun item => ⟨uid, .delete item.itemID⟩ := by
  simp [sent, NetworkService.putOrder]

theorem mem_sent {order : Order} {x : SentWrite} (h : x ∈ sent uid order) :
    x.userID = uid := by
  obtain ⟨w, -, rfl⟩ := List.mem_map.mp h
  rfl

section Sent

variable {order : Order}

theorem sum_outOfBasket_sent (hitems : order.items.Perm (getOrder s uid))
    (u : String) (ref : ItemRef) :
    ((sent uid order).map (SentWrite.outOfBasket s u ref)).sum =
      if u = uid then s.basketOf uid ref else 0 := by
  split
  · next hu =>
      subst hu
      rw [basketOf, ← units_ofOrder hitems ref, sent_eq, List.map_cons,
        List.sum_cons, OrderDoc.units, OrderDoc.ofOrder, List.map_map,
        List.map_map]
      refine (zero_add _).trans (congrArg List.sum ?_)
      refine List.map_congr_left fun item hitem => ?_
      obtain ⟨l, d, hl, rfl⟩ := mem_getOrder.mp (hitems.mem_iff.mp hitem)
      simp only [Function.comp_apply, SentWrite.outOfBasket,
        LineDoc.decode_itemID, hl, true_and]
      exact if_congr eq_comm rfl rfl
  · next hu =>
      exact sum_outOfBasket_eq_zero fun x hx heq => hu (heq ▸ mem_sent hx)

theorem sum_placing_sent (u : String) :
    ((sent uid order).map (SentWrite.placing u)).sum =
      if u = uid then {(OrderDoc.ofOrder order).placed} else 0 := by
  have hdeletes : ((order.items.map fun item =>
      (⟨uid, .delete item.itemID⟩ : SentWrite)).map
        (SentWrite.placing u)).sum = 0 := by
    refine List.sum_eq_zero fun o ho => ?_
    obtain ⟨x, hx, rfl⟩ := List.mem_map.mp ho
    obtain ⟨item, -, rfl⟩ := List.mem_map.mp hx
    rfl
  rw [sent_eq, List.map_cons, List.sum_cons, hdeletes, add_zero]
  exact if_congr eq_comm rfl rfl

theorem filterMap_sent : (sent uid order).filterMap SentWrite.line? =
    order.items.map fun item => (uid, item.itemID) := by
  rw [sent_eq, List.filterMap_cons_none rfl, List.filterMap_map,
    ← List.filterMap_eq_map]
  rfl

/-- An order that is sent is as good as placed. -/
theorem Tidy.ordered (h : s.Tidy calls writes)
    (hitems : order.items.Perm (getOrder s uid))
    (hcalls : ∀ k ∈ calls, k.caller? ≠ some uid)
    (hwrites : ∀ x ∈ writes, x.userID ≠ uid) :
    s.Tidy calls (writes ++ sent uid order) ∧
      s.shopWith calls (writes ++ sent uid order) =
        (s.shopWith calls writes).place uid order.date order.countOfDay := by
  constructor
  · refine ⟨h.sound, h.inHand, h.apart, fun k hk x hx => ?_, ?_⟩
    · rcases List.mem_append.mp hx with hx | hx
      · exact h.users k hk x hx
      · rw [mem_sent hx]
        exact hcalls k hk
    · rw [List.filterMap_append, List.nodup_append, filterMap_sent]
      refine ⟨h.deletes, ?_, fun a ha b hb heq => ?_⟩
      · have hnodup : (order.items.map BasketItem.itemID).Nodup :=
          (hitems.map _).nodup_iff.mpr (getOrder_nodup s uid)
        have hpairs := hnodup.map (f := fun l => (uid, l))
          fun _ _ hl => (Prod.mk.inj hl).2
        rwa [List.map_map] at hpairs
      · obtain ⟨x, hx, hxa⟩ := List.mem_filterMap.mp ha
        obtain ⟨item, -, rfl⟩ := List.mem_map.mp hb
        refine hwrites x hx ?_
        rw [← SentWrite.fst_of_line? hxa, heq]
  · have hplaced : (OrderDoc.ofOrder order).placed =
        ⟨order.date, order.countOfDay,
          (s.shopWith calls writes).basket uid⟩ := by
      refine Shop.Placed.ext rfl rfl (funext fun ref => ?_)
      exact (units_ofOrder hitems ref).trans
        (h.basket_eq hcalls hwrites ref).symm
    refine Shop.State.ext rfl (funext fun u => ?_) (funext fun u => ?_)
    · funext ref
      simp only [shopWith, Shop.State.place, Function.update_apply,
        List.map_append, List.sum_append, sum_outOfBasket_sent hitems]
      split
      · next hu =>
          subst hu
          rw [h.sum_toBasket hcalls, sum_outOfBasket_eq_zero hwrites,
            add_zero, zero_add, sub_self]
      · rw [add_zero]
    · simp only [shopWith, Shop.State.place, Function.update_apply,
        List.map_append, List.sum_append, sum_placing_sent]
      split
      · next hu =>
          subst hu
          rw [← add_assoc, hplaced]
          rfl
      · rw [add_zero]

end Sent

section Written

variable {x : SentWrite} {orderID : String}

theorem basketOf_deleteLine (l u : String) (ref : ItemRef) :
    (s.deleteLine uid l).basketOf u ref =
      s.basketOf u ref -
        SentWrite.outOfBasket s u ref ⟨uid, .delete l⟩ := by
  cases hl : s.line uid l with
  | none =>
      have hsame : s.deleteLine uid l = s := by
        rw [deleteLine, Keyed.Coll.erase_of_get hl]
      simp only [SentWrite.outOfBasket, hl, hsame, sub_zero]
  | some d =>
      rw [basketOf, held_deleteLine hl, ← basketOf, linesOf_bif]
      simp only [SentWrite.outOfBasket, hl]

theorem outOfBasket_deleteLine {l u : String} {ref : ItemRef}
    (hx : x.line? ≠ some (uid, l)) :
    SentWrite.outOfBasket (s.deleteLine uid l) u ref x =
      SentWrite.outOfBasket s u ref x := by
  obtain ⟨userID, write⟩ := x
  cases write with
  | addDocument data => rfl
  | delete l' =>
      have hne : ¬ (userID = uid ∧ l' = l) := by
        rintro ⟨rfl, rfl⟩
        exact hx rfl
      simp only [SentWrite.outOfBasket, line_deleteLine, if_neg hne]

theorem ordersPlaced_setOrder {data : OrderDoc}
    (hfresh : s.orders.get (userKey uid orderID) = none) (u : String) :
    (s.setOrder uid orderID data).ordersPlaced u =
      s.ordersPlaced u + if uid = u then {data.placed} else 0 :=
  Keyed.Coll.total_put_new _ _ hfresh

/-- A write carried out is what it was taken for. -/
theorem Tidy.written (h : s.Tidy calls (x :: writes))
    (hfresh : s.orders.get (userKey x.userID orderID) = none) :
    (x.write.apply x.userID orderID s).Tidy calls writes ∧
      (x.write.apply x.userID orderID s).shopWith calls writes =
        s.shopWith calls (x :: writes) := by
  obtain ⟨userID, write⟩ := x
  have husers : ∀ k ∈ calls, ∀ y ∈ writes, k.caller? ≠ some y.userID :=
    fun k hk y hy => h.users k hk y (List.mem_cons_of_mem _ hy)
  cases write with
  | addDocument data =>
      refine ⟨⟨⟨⟨h.sound.named.named, h.sound.named.distinct,
        h.sound.named.line⟩, h.sound.proper, h.sound.single⟩, fun k hk => ?_,
          h.apart, husers, h.deletes⟩, ?_⟩
      · exact (h.inHand k hk).frame (fun _ _ => rfl) (fun _ _ _ _ _ => Iff.rfl)
          fun _ _ d _ _ hd => ⟨d, hd, rfl⟩
      · refine Shop.State.ext rfl (funext fun u => funext fun ref => ?_)
          (funext fun u => ?_)
        · simp only [shopWith, List.map_cons, List.sum_cons]
          exact congrArg _ (zero_add _).symm
        · simp only [shopWith, List.map_cons, List.sum_cons, PutWrite.apply,
            ordersPlaced_setOrder hfresh]
          exact add_assoc _ _ _
  | delete l =>
      have hline : SentWrite.line? ⟨userID, .delete l⟩ = some (userID, l) :=
        rfl
      have hdeletes := h.deletes
      rw [List.filterMap_cons_some hline, List.nodup_cons] at hdeletes
      have hrest : ∀ y ∈ writes, y.line? ≠ some (userID, l) := fun y hy hl =>
        hdeletes.1 (List.mem_filterMap.mpr ⟨y, hy, hl⟩)
      refine ⟨⟨h.sound.deleteLine _ _, fun k hk => ?_, h.apart, husers,
        hdeletes.2⟩, ?_⟩
      · exact (h.inHand k hk).deleteLine (h.users k hk _ List.mem_cons_self)
      · refine Shop.State.ext rfl (funext fun u => funext fun ref => ?_)
          (funext fun u => ?_)
        · have hout : writes.map (SentWrite.outOfBasket
              (s.deleteLine userID l) u ref) =
                writes.map (SentWrite.outOfBasket s u ref) :=
            List.map_congr_left fun y hy => outOfBasket_deleteLine (hrest y hy)
          simp only [shopWith, List.map_cons, List.sum_cons, PutWrite.apply,
            basketOf_deleteLine, hout]
          omega
        · simp only [shopWith, List.map_cons, List.sum_cons]
          exact congrArg _ (zero_add _).symm

end Written

theorem shopWith_finished (h : ∀ k ∈ calls, k.Finished) :
    s.shopWith calls [] = s.shop := by
  have hitem : ∀ ref, ∀ k ∈ calls, k.item? ≠ some ref := by
    intro ref k hk
    rw [Call.item?_of_finished (h k hk)]
    exact nofun
  refine Shop.State.ext (funext fun ref => ?_)
    (funext fun u => funext fun ref => ?_) (funext fun u => ?_)
  · simp only [shopWith, sum_toShelf_eq_zero (hitem ref), add_zero, shop]
  · simp only [shopWith, sum_toBasket_eq_zero (hitem ref), List.map_nil,
      List.sum_nil, add_zero, sub_zero, shop]
  · simp only [shopWith, List.map_nil, List.sum_nil, add_zero, shop]

end Store

end PhoRent
