import PhoRent.App.NetworkService
import PhoRent.Proofs.Effect

/-!
# Conservation of units

A unit of an item is in stock, in somebody's basket or in somebody's order.
As long as calls run one after the other and to their ends, they only move
units between these places. The count of an item is kept together with two
facts the functions rely on without checking them: that a basket line carries
the name of its item, and that a basket has one line per item.
-/

namespace PhoRent

open NetworkService

def Store.linesFor (ref : ItemRef) (_ : String) (r : ItemRef) : Bool :=
  decide (r = ref)

def Store.units (s : Store ℤ) (ref : ItemRef) : ℤ :=
  s.stock ref + s.held (Store.linesFor ref) + s.ordered ref

/-- The store after one complete call. -/
inductive Serves (s : Store ℤ) : Store ℤ → Prop
  -- an add of at least one unit of an item that exists
  | add (ref : ItemRef) (uid : String) (n : ℤ) (hn : 1 ≤ n)
      (hitem : s.items ref ≠ none) {v : Returned} {call k : Call ℤ}
      (hcall : addItemInBasket
        (some ⟨.str ref.itemID, .str ref.categoryID, n⟩) (some uid) =
          .returned v call)
      {s' : Store ℤ} (hrun : RunAlone .all (s, call) (s', k))
      (hfin : k.Finished) : Serves s s'
  -- a removal, its arguments taken from the item decoded from the line
  | delete (uid : String) (item : BasketItem) (hid : DocID item.itemID)
      (hitem : ∀ d, s.line uid item.itemID = some d →
        item.categoryID = d.categoryID ∧ item.dbItemID = d.itemID)
      {v : Returned} {call k : Call ℤ}
      (hcall : deleteItemFromBasket
        (some ⟨.str item.itemID, .str item.categoryID, .str item.dbItemID⟩)
        (some uid) = .returned v call)
      {s' : Store ℤ} (hrun : RunAlone .all (s, call) (s', k))
      (hfin : k.Finished) : Serves s s'
  -- an order of all lines of the basket, its writes answered in any order
  | putOrder (uid orderID : String) (order : Order)
      (hitems : order.items.Perm (getOrder s uid)) (ws : List PutWrite)
      (hws : ws.Perm (NetworkService.putOrder (some uid) order))
      (hfresh : s.orders.get (userKey uid orderID) = none) :
      Serves s (answerAll uid orderID (fun _ => true) s ws)

/-! ## What a complete call does -/

section Outcome

variable {s : Store ℤ} {ref : ItemRef} {uid : String} {n : ℤ}
  {item : ItemDoc ℤ}

/-- The store after an accepted add: the stock is written, and the one line of
the item is created or updated. -/
inductive AddEnd (s : Store ℤ) (ref : ItemRef) (uid : String) (n : ℤ)
    (item : ItemDoc ℤ) (s₁ : Store ℤ) : Store ℤ → Prop
  | create (l : String) (hl : s.line uid l = none)
      (hnone : ∀ l d, s.line uid l = some d → d.ref ≠ ref) :
      AddEnd s ref uid n item s₁
        (s₁.setLine uid l (AddCall.newLine (.of ref uid n) item))
  | update (l : String) (d : LineDoc ℤ) (hl : s.line uid l = some d)
      (href : d.ref = ref) :
      AddEnd s ref uid n item s₁
        (s₁.setLine uid l { d with count := d.count + n })

/-- How an add ends: refused, or with its units moved into the line. -/
theorem add_ends (hwell : s.WellNamed) (hone : s.AtMostOneLine uid ref)
    (hitem : s.items ref = some item) :
    Ends .all (s, .add (.getItem (.of ref uid n))) fun z =>
      z.1 = s ∨ ∃ s₁, s.updateItem ref (item.count - n) = some s₁ ∧
        AddEnd s ref uid n item s₁ z.1 := by
  intro z hr hz
  have hnames : ∀ name, item.name = some name → s.NamesLines uid ref name :=
    fun name hname l d hd => hwell.name_iff ⟨item, hitem, hname⟩ hd
  have hend := add_outcome z hr hz
  cases hend with
  | absent | refused => exact Or.inl rfl
  | nameless hi hle hname hu =>
      obtain ⟨name, hname'⟩ := hwell.named ref _ hi
      rw [hname] at hname'
      cases hname'
  | created hi hle hname hu hq id hid =>
      obtain rfl := Option.some.inj (hi.symm.trans hitem)
      refine Or.inr ⟨_, hu, .create id (hid uid) fun l d hd href => ?_⟩
      exact Store.linesNamed_eq_nil.mp hq l d hd
        ((hnames _ hname l d hd).mpr href)
  | @updated _ _ hi hle hname s₁ hu hq s' hitems horders hlines =>
      obtain rfl := Option.some.inj (hi.symm.trans hitem)
      obtain ⟨l, d, hl, href, hdocs⟩ :=
        (hone.linesNamed (hnames _ hname)).resolve_left hq
      have hline := Store.updateItem_line hu
      rw [hdocs, List.map_singleton] at hlines
      have hend : s' = s₁.setLine uid l { d with count := d.count + n } := by
        refine Store.ext hitems (Store.basket_eq_iff.mpr fun u l' => ?_) horders
        rw [hlines.line_single hl, Store.line_setLine, Store.line_setLine,
          hline]
      exact Or.inr ⟨s₁, hu, hend ▸ .update l d hl href⟩

/-- How a removal ends: with nothing done if the line is not there, or with
the line deleted and its units back in stock. -/
theorem delete_ends {req : DeleteReq} (hwell : s.WellNamed)
    (hreq : ∀ d, s.line req.uid req.itemID = some d → req.ref? = some d.ref) :
    Ends .all (s, .delete (.getLine req)) fun z =>
      z.1 = s ∨ ∃ d item, s.line req.uid req.itemID = some d ∧
        s.items d.ref = some item ∧
        (s.deleteLine req.uid req.itemID).updateItem d.ref
          (item.count + d.count) = some z.1 := by
  intro z hr hz
  have hend := delete_outcome z hr hz
  cases hend with
  | absent hl => exact Or.inl rfl
  | nowhere hl href =>
      rw [hreq _ hl] at href
      cases href
  | lost hl href hi =>
      obtain ⟨item, hitem, -⟩ := hwell.line _ _ _ hl
      obtain rfl := Option.some.inj ((hreq _ hl).symm.trans href)
      rw [hi] at hitem
      cases hitem
  | restocked hl href hi hu =>
      obtain rfl := Option.some.inj ((hreq _ hl).symm.trans href)
      exact Or.inr ⟨_, _, hl, hi, hu⟩

end Outcome

/-! ## What the operations keep -/

section Kept

variable {s s' : Store ℤ} {uid l : String} {d : LineDoc ℤ} {ref : ItemRef}

theorem Store.WellNamed.updateItem {n : ℤ} (h : s.WellNamed)
    (hu : s.updateItem ref n = some s') : s'.WellNamed := by
  have hback : ∀ r item', s'.items r = some item' →
      ∃ item, s.items r = some item ∧ item.name = item'.name := by
    intro r item' hi'
    rw [Store.updateItem_items hu] at hi'
    split at hi'
    · next hr =>
        obtain ⟨item, hi, rfl⟩ := Option.map_eq_some_iff.mp hi'
        exact ⟨item, hr ▸ hi, rfl⟩
    · exact ⟨item', hi', rfl⟩
  refine ⟨fun r item' hi' => ?_, fun r r' i' j' hi' hj' hn => ?_,
    fun u l d hd => ?_⟩
  · obtain ⟨item, hi, hn⟩ := hback r item' hi'
    exact hn ▸ h.named r item hi
  · obtain ⟨i, hi, hin⟩ := hback r i' hi'
    obtain ⟨j, hj, hjn⟩ := hback r' j' hj'
    exact h.distinct r r' i j hi hj (by rw [hin, hjn, hn])
  · rw [Store.updateItem_line hu] at hd
    obtain ⟨item, hi, hn⟩ := h.line u l d hd
    by_cases hr : d.ref = ref
    · refine ⟨{ item with count := n }, ?_, hn⟩
      rw [Store.updateItem_items hu, if_pos hr, ← hr, hi]
      rfl
    · exact ⟨item, by rw [Store.updateItem_items hu, if_neg hr]; exact hi, hn⟩

/-- The lines of a later basket are lines of the earlier one, as far as names
and items go. -/
theorem Store.WellNamed.lines (h : s.WellNamed) (hi : s'.items = s.items)
    (hl : ∀ u l d', s'.line u l = some d' → ∃ item,
      s.items d'.ref = some item ∧ d'.name = item.name) : s'.WellNamed := by
  refine ⟨?_, ?_, fun u l d' hd' => ?_⟩
  · rw [hi]; exact h.named
  · rw [hi]; exact h.distinct
  · rw [hi]; exact hl u l d' hd'

theorem Store.WellNamed.setLine (h : s.WellNamed) {item : ItemDoc ℤ}
    (hi : s.items d.ref = some item) (hn : d.name = item.name) :
    (s.setLine uid l d).WellNamed := by
  refine h.lines rfl fun u l' d' hd' => ?_
  rcases Store.line_of_setLine hd' with ⟨-, -, rfl⟩ | hd'
  · exact ⟨item, hi, hn⟩
  · exact h.line u l' d' hd'

theorem Store.AtMostOneLine.mono {u : String} (h : s.AtMostOneLine u ref)
    (hl : ∀ l d', s'.line u l = some d' →
      ∃ d, s.line u l = some d ∧ d.ref = d'.ref) :
    s'.AtMostOneLine u ref := by
  intro l₁ l₂ d₁ d₂ h₁ h₂ hr₁ hr₂
  obtain ⟨e₁, he₁, hre₁⟩ := hl l₁ d₁ h₁
  obtain ⟨e₂, he₂, hre₂⟩ := hl l₂ d₂ h₂
  exact h l₁ l₂ e₁ e₂ he₁ he₂ (hre₁.trans hr₁) (hre₂.trans hr₂)

theorem Store.AtMostOneLine.setLine {u : String} {r : ItemRef}
    (h : s.AtMostOneLine u r)
    (hnone : ∀ l d', s.line uid l = some d' → d'.ref ≠ d.ref) :
    (s.setLine uid l d).AtMostOneLine u r := by
  intro l₁ l₂ d₁ d₂ h₁ h₂ hr₁ hr₂
  rcases Store.line_of_setLine h₁ with ⟨hu₁, rfl, rfl⟩ | h₁ <;>
    rcases Store.line_of_setLine h₂ with ⟨hu₂, hl₂, hd₂⟩ | h₂
  · exact hl₂.symm
  · exact absurd (hr₂.trans hr₁.symm) (hnone l₂ d₂ (hu₁ ▸ h₂))
  · exact absurd (hr₁.trans (hd₂ ▸ hr₂).symm) (hnone l₁ d₁ (hu₂ ▸ h₁))
  · exact h l₁ l₂ d₁ d₂ h₁ h₂ hr₁ hr₂

end Kept

/-! ## What the operations do to the units -/

section Units

variable {s s' : Store ℤ} {uid l : String} {d : LineDoc ℤ} {ref r : ItemRef}
  {item : ItemDoc ℤ} {n : ℤ}

theorem Store.units_updateItem (hi : s.items ref = some item)
    (hu : s.updateItem ref n = some s') (r : ItemRef) :
    s'.units r = s.units r + if r = ref then n - item.count else 0 := by
  have hst := Store.stock_of_items hi
  rw [Store.units, Store.units, Store.stock_updateItem hu,
    Store.held_updateItem hu, Store.ordered, Store.updateItem_orders hu,
    Store.ordered]
  split
  · next hr => subst hr; omega
  · omega

theorem Store.units_of_held (s s' : Store ℤ) (hi : s'.items = s.items)
    (ho : s'.orders = s.orders) (r : ItemRef) :
    s'.units r = s.units r +
      (s'.held (Store.linesFor r) - s.held (Store.linesFor r)) := by
  rw [Store.units, Store.units, Store.stock, hi, Store.stock, Store.ordered,
    ho, Store.ordered]
  omega

theorem Store.linesFor_bif (u : String) (x : ℤ) :
    (bif Store.linesFor r u ref then x else 0) = if ref = r then x else 0 := by
  by_cases hr : ref = r <;> simp [Store.linesFor, hr]

theorem Store.units_setLine_new (h : s.line uid l = none) (r : ItemRef) :
    (s.setLine uid l d).units r =
      s.units r + if d.ref = r then d.count else 0 := by
  rw [Store.units_of_held s (s.setLine uid l d) rfl rfl,
    Store.held_setLine_new h,
    Store.linesFor_bif]
  omega

theorem Store.units_setLine_count (h : s.line uid l = some d) (n : ℤ)
    (r : ItemRef) : (s.setLine uid l { d with count := n }).units r =
      s.units r + if d.ref = r then n - d.count else 0 := by
  rw [Store.units_of_held s (s.setLine uid l { d with count := n }) rfl rfl,
    Store.held_setLine_count h,
    Store.linesFor_bif]
  omega

theorem Store.units_deleteLine (h : s.line uid l = some d) (r : ItemRef) :
    (s.deleteLine uid l).units r =
      s.units r - if d.ref = r then d.count else 0 := by
  rw [Store.units_of_held s (s.deleteLine uid l) rfl rfl,
    Store.held_deleteLine h,
    Store.linesFor_bif]
  omega

/-- An accepted add moves its units from the stock to the line. -/
theorem AddEnd.units {s₁ : Store ℤ} (hi : s.items ref = some item)
    (hu : s.updateItem ref (item.count - n) = some s₁)
    (h : AddEnd s ref uid n item s₁ s') (r : ItemRef) :
    s'.units r = s.units r := by
  have hst := Store.units_updateItem hi hu r
  have hline := Store.updateItem_line hu
  cases h with
  | create l hl hnone =>
      rw [Store.units_setLine_new ((hline uid l).trans hl), hst]
      have href : (AddCall.newLine (.of ref uid n) item).ref = ref := rfl
      have hcount : (AddCall.newLine (.of ref uid n) item).count = n := rfl
      rw [href, hcount]
      by_cases hr : r = ref
      · rw [if_pos hr, if_pos hr.symm]; omega
      · rw [if_neg hr, if_neg (Ne.symm hr)]; omega
  | update l d hl href =>
      rw [Store.units_setLine_count ((hline uid l).trans hl), hst, href]
      by_cases hr : r = ref
      · rw [if_pos hr, if_pos hr.symm]; omega
      · rw [if_neg hr, if_neg (Ne.symm hr)]; omega

/-- A removal moves the units of the line back to the stock. -/
theorem units_restock (hl : s.line uid l = some d)
    (hi : s.items d.ref = some item)
    (hu : (s.deleteLine uid l).updateItem d.ref (item.count + d.count) =
      some s') (r : ItemRef) : s'.units r = s.units r := by
  rw [Store.units_updateItem (by simpa using hi) hu,
    Store.units_deleteLine hl]
  by_cases hr : r = d.ref
  · rw [if_pos hr, if_pos hr.symm]; omega
  · rw [if_neg hr, if_neg (Ne.symm hr)]; omega

end Units

/-! ## Orders -/

section Orders

variable {s : Store ℤ} {uid orderID : String} {order : Order}
  {ws : List PutWrite}

theorem line_putOrder (hitems : order.items.Perm (getOrder s uid))
    (hws : ws.Perm (putOrder (some uid) order)) (u l : String) :
    (answerAll uid orderID (fun _ => true) s ws).line u l =
      if u = uid then none else s.line u l := by
  by_cases hu : u = uid
  · subst hu
    rw [if_pos rfl, line_answerAll]
    split
    · rfl
    · next hnot =>
        cases hd : s.line u l with
        | none => rfl
        | some d =>
            refine absurd ⟨?_, rfl⟩ hnot
            rw [hws.mem_iff]
            refine List.mem_cons_of_mem _
              (List.mem_map.mpr ⟨d.decode l, ?_, rfl⟩)
            rw [hitems.mem_iff]
            exact mem_getOrder.mpr ⟨l, d, hd, rfl⟩
  · rw [if_neg hu, line_answerAll_ne hu]

/-- An order of all lines moves the units of the basket into the order. -/
theorem units_putOrder (hitems : order.items.Perm (getOrder s uid))
    (hws : ws.Perm (putOrder (some uid) order))
    (hfresh : s.orders.get (userKey uid orderID) = none) (r : ItemRef) :
    (answerAll uid orderID (fun _ => true) s ws).units r = s.units r := by
  have hdoc : ∀ data, .addDocument data ∈ ws ↔ data = .ofOrder order := by
    intro data
    rw [hws.mem_iff]
    simp [putOrder]
  have horders : (answerAll uid orderID (fun _ => true) s ws).orders =
      s.orders.put (userKey uid orderID) (.ofOrder order) := by
    rw [orders_answerAll (.ofOrder order) ws s fun data h => (hdoc data).mp h,
      if_pos ⟨(hdoc _).mpr rfl, rfl⟩]
  have hordered : (answerAll uid orderID (fun _ => true) s ws).ordered r =
      s.ordered r + s.held (Store.linesOf uid r) := by
    rw [← units_ofOrder hitems r, ← Store.ordered_setOrder_new hfresh,
      Store.ordered, horders]
    rfl
  have hheld : s.held (Store.linesFor r) =
      s.held (Store.linesOf uid r) +
        (answerAll uid orderID (fun _ => true) s ws).held
          (Store.linesFor r) := by
    have hrest : (answerAll uid orderID (fun _ => true) s ws).held
        (Store.linesFor r) = _ :=
      Keyed.Coll.total_of_get_ite _ (fun k => ¬ (ofLex k).1 = uid)
        fun k => by
          rw [ite_not]
          exact line_putOrder hitems hws (ofLex k).1 (ofLex k).2
    rw [hrest, Store.held, Keyed.Coll.total_split _
      (fun k : UserKey => (ofLex k).1 = uid), Store.held]
    refine congrArg₂ (· + ·) ?_ ?_
    · refine congrArg (fun f => Keyed.Coll.total f s.basket) ?_
      funext k d
      by_cases hu : (ofLex k).1 = uid <;>
        simp [Store.linesOf, Store.linesFor, hu]
    · refine congrArg (fun f => Keyed.Coll.total f s.basket) ?_
      funext k d
      rw [ite_not]
  rw [Store.units, Store.units, hordered, hheld, Store.stock, items_answerAll,
    Store.stock]
  omega

end Orders

/-! ## Runs -/

section Runs

variable {s s' : Store ℤ}

/-- What every complete call relies on, and leaves behind. -/
structure Store.Sound (s : Store ℤ) : Prop where
  named : s.WellNamed
  proper : ∀ ref, s.items ref ≠ none → ref.Proper
  single : ∀ uid ref, s.AtMostOneLine uid ref

theorem Store.Sound.ref (h : s.Sound) {uid l : String} {d : LineDoc ℤ}
    (hd : s.line uid l = some d) : d.ref.Proper := by
  obtain ⟨item, hi, -⟩ := h.named.line uid l d hd
  exact h.proper d.ref (by rw [hi]; simp)

theorem Store.Sound.updateItem {ref : ItemRef} {n : ℤ} (h : s.Sound)
    (hu : s.updateItem ref n = some s') : s'.Sound := by
  refine ⟨h.named.updateItem hu, fun r hr => h.proper r fun hnone => hr ?_,
    fun uid r => (h.single uid r).mono fun l d hd => ⟨d, ?_, rfl⟩⟩
  · rw [Store.updateItem_items hu]
    split
    · next heq => rw [← heq, hnone]; rfl
    · exact hnone
  · rw [← Store.updateItem_line hu]; exact hd

theorem Store.Sound.fewer (h : s.Sound) (hi : s'.items = s.items)
    (hl : ∀ u l d, s'.line u l = some d → s.line u l = some d) :
    s'.Sound := by
  refine ⟨h.named.lines hi fun u l d hd => ?_, ?_, fun uid r =>
    (h.single uid r).mono fun l d hd => ⟨d, hl uid l d hd, rfl⟩⟩
  · obtain ⟨item, hitem, hn⟩ := h.named.line u l d (hl u l d hd)
    exact ⟨item, hitem, hn⟩
  · rw [hi]; exact h.proper

theorem Store.Sound.deleteLine (h : s.Sound) (uid l : String) :
    (s.deleteLine uid l).Sound :=
  h.fewer rfl fun _ _ _ hd => Store.line_of_deleteLine hd

theorem AddEnd.sound {s₁ : Store ℤ} {ref : ItemRef} {uid : String} {n : ℤ}
    {item : ItemDoc ℤ} (hs : s.Sound) (hi : s.items ref = some item)
    (hu : s.updateItem ref (item.count - n) = some s₁)
    (h : AddEnd s ref uid n item s₁ s') : s'.Sound := by
  have hs₁ := hs.updateItem hu
  have hline := Store.updateItem_line hu
  have hi₁ : s₁.items ref = some { item with count := item.count - n } := by
    rw [Store.updateItem_items hu, if_pos rfl, hi]
    rfl
  cases h with
  | create l hl hnone =>
      refine ⟨hs₁.named.setLine hi₁ rfl, hs₁.proper, fun u r =>
        (hs₁.single u r).setLine fun l' d' hd' => hnone l' d' ?_⟩
      rw [← hline]; exact hd'
  | update l d hl href =>
      obtain ⟨item', hi', hn⟩ := hs₁.named.line uid l d ((hline uid l).trans hl)
      have hd' : { d with count := d.count + n }.ref = d.ref := rfl
      refine ⟨hs₁.named.setLine (hd'.symm ▸ hi') hn, hs₁.proper,
        fun u r => (hs₁.single u r).mono fun l' d' hd' => ?_⟩
      rcases Store.line_of_setLine hd' with ⟨rfl, rfl, rfl⟩ | hd'
      · exact ⟨d, by rw [hline, hl], rfl⟩
      · exact ⟨d', hd', rfl⟩

/-- One complete call keeps the units where they can be counted. -/
theorem serves_units (hs : s.Sound) (h : Serves s s') :
    s'.Sound ∧ ∀ ref, s'.units ref = s.units ref := by
  cases h with
  | add ref uid n hn hitem hcall hrun hfin =>
      obtain ⟨item, hi⟩ := Option.ne_none_iff_exists'.mp hitem
      rw [addItemInBasket_of (hs.proper ref hitem)] at hcall
      obtain ⟨-, rfl⟩ := Handled.returned.inj hcall
      rcases add_ends hs.named (hs.single uid ref) hi _ hrun hfin with
        heq | ⟨s₁, hs₁, hend⟩
      · obtain rfl : s' = s := heq
        exact ⟨hs, fun _ => rfl⟩
      · exact ⟨hend.sound hs hi hs₁, hend.units hi hs₁⟩
  | delete uid item hid hitem hcall hrun hfin =>
      rw [deleteItemFromBasket] at hcall
      simp only [docPath_str hid] at hcall
      obtain ⟨-, rfl⟩ := Handled.returned.inj hcall
      have hreq : ∀ d, s.line uid item.itemID = some d →
          DeleteReq.ref? ⟨uid, item.itemID, docPath (.str item.categoryID),
            docPath (.str item.dbItemID)⟩ = some d.ref := by
        intro d hd
        obtain ⟨hc, hi⟩ := hitem d hd
        have hpc : DocID d.categoryID := (hs.ref hd).1
        have hpi : DocID d.itemID := (hs.ref hd).2
        rw [hc, hi, docPath_str hpc, docPath_str hpi]
        rfl
      rcases delete_ends hs.named hreq _ hrun hfin with
        heq | ⟨d, item', hd, hi, hu⟩
      · obtain rfl : s' = s := heq
        exact ⟨hs, fun _ => rfl⟩
      · exact ⟨(hs.deleteLine uid item.itemID).updateItem hu,
          units_restock hd hi hu⟩
  | putOrder uid orderID order hitems ws hws hfresh =>
      refine ⟨hs.fewer (items_answerAll ws s) fun u l d hd => ?_,
        units_putOrder hitems hws hfresh⟩
      rw [line_putOrder hitems hws] at hd
      split at hd
      · cases hd
      · exact hd

/-- However many calls are served, one after the other and each to its end,
the units of an item in stock, in baskets and in orders add up to the initial
stock, and no basket has two lines of one item. -/
theorem units_conserved {s₀ : Store ℤ} (hnamed : s₀.WellNamed)
    (hproper : ∀ ref, s₀.items ref ≠ none → ref.Proper)
    (hbasket : s₀.basket = .empty) (horders : s₀.orders = .empty)
    (h : Relation.ReflTransGen Serves s₀ s) :
    (∀ ref, s.stock ref + s.held (Store.linesFor ref) + s.ordered ref =
      s₀.stock ref) ∧
    ∀ uid ref, s.AtMostOneLine uid ref := by
  have hnone : ∀ u l, s₀.line u l = none := by
    intro u l
    rw [Store.line, hbasket]
    rfl
  have hs₀ : s₀.Sound := by
    refine ⟨hnamed, hproper, fun uid ref l l' d d' hd => ?_⟩
    rw [hnone] at hd
    cases hd
  have hkept : s.Sound ∧ ∀ ref, s.units ref = s₀.units ref := by
    induction h with
    | refl => exact ⟨hs₀, fun _ => rfl⟩
    | tail _ hstep ih =>
        obtain ⟨hs, hunits⟩ := serves_units ih.1 hstep
        exact ⟨hs, fun ref => (hunits ref).trans (ih.2 ref)⟩
  refine ⟨fun ref => ?_, hkept.1.single⟩
  have hzero : s₀.units ref = s₀.stock ref := by
    rw [Store.units, Store.held, hbasket, Store.ordered, horders]
    simp [Keyed.Coll.total, Keyed.Coll.empty]
  rw [← hzero, ← hkept.2 ref, Store.units]

end Runs

theorem cameras_proper (n : ℤ) (ref : ItemRef)
    (h : (cameras n).items ref ≠ none) : ref.Proper := by
  simp only [cameras] at h
  split at h
  · next href => exact href ▸ ⟨by decide, by decide⟩
  · exact absurd rfl h

/-- Two cameras of five are rented out: added, and ordered. -/
theorem units_conserved_cameras :
    ∃ s, Relation.ReflTransGen Serves (cameras 5) s ∧ s.ordered camera = 2 ∧
      s.stock camera + s.held (Store.linesFor camera) + s.ordered camera = 5 := by
  let t : Turn := ⟨true, "l", 0⟩
  let x₀ : Store ℤ × Call ℤ :=
    (cameras 5, .add (.getItem (.of camera "ann" 2)))
  let x₁ := x₀.2.step t x₀.1
  let x₂ := x₁.2.step t x₁.1
  let x₃ := x₂.2.step t x₂.1
  let x₄ := x₃.2.step t x₃.1
  have hrun : RunAlone .all x₀ x₄ :=
    .tail (.tail (.tail (.single ⟨t, fun _ => rfl, rfl, rfl⟩)
      ⟨t, fun _ => rfl, rfl, rfl⟩) ⟨t, fun _ => rfl, rfl, rfl⟩)
      ⟨t, fun _ => rfl, rfl, rfl⟩
  have hadd : Serves (cameras 5) x₄.1 :=
    .add camera "ann" 2 (by decide) (by simp [cameras]) rfl hrun trivial
  let order : Order := ⟨"", "1.6", 3, "", getOrder x₄.1 "ann"⟩
  have horder : Serves x₄.1 (answerAll "ann" "o" (fun _ => true) x₄.1
      (NetworkService.putOrder (some "ann") order)) :=
    .putOrder "ann" "o" order (.refl _) _ (.refl _) rfl
  have hreach := Relation.ReflTransGen.tail (.single hadd) horder
  refine ⟨_, hreach, by decide +kernel, ?_⟩
  exact (units_conserved (cameras_wellNamed 5) (cameras_proper 5) rfl rfl
    hreach).1 camera

end PhoRent
