import Mathlib.Data.Set.Operations
import PhoRent.App.World
import PhoRent.Proofs.AddFromRow
import PhoRent.Proofs.RemovedRow
import PhoRent.Proofs.ShownItems
import PhoRent.Proofs.Undone

/-!
# What the screens hold

A screen makes no items of its own. What a basket screen has in its order and
in its rows has come in with a snapshot, and so has what a page has in its
lists, though a page lowers the counts. So whatever is true of all items in
all snapshots is true of what is on the screens, whichever events have been
handled in between.

The days of the order are those of the stepper, which keeps to its bounds, and
its date has always been written by the formatter.
-/

namespace PhoRent

open Machine

variable {Date : Type} {formatter : DateFormatter Date}
  {P : BasketItem → Prop}

/-- Every item a snapshot brings satisfies `P`. -/
def BasketScreenEvent.Brings (P : BasketItem → Prop) :
    BasketScreenEvent Date → Prop
  | .snapshot items _ => ∀ item ∈ items, P item
  | _ => True

/-! ## The basket -/

namespace BasketPresenter

variable {self : BasketPresenter} {now : Date}

/-- The order of the presenter could be sent as it is, but for being empty. -/
structure Holds (formatter : DateFormatter Date) (P : BasketItem → Prop)
    (p : BasketPresenter) : Prop where
  items : ∀ item ∈ p.lines, P item
  days : ∀ order ∈ p.currentOrder,
    1 ≤ order.countOfDay ∧ order.countOfDay ≤ 30
  date : ∀ order ∈ p.currentOrder, order.date ∈ Set.range formatter.string
  -- while an order is being sent there is one
  idle : p.currentOrder = none → p.isPutOrderProcess = false

theorem Holds.of_some {order : Order} {flag : Bool}
    (hitems : ∀ item ∈ order.items, P item)
    (hdays : 1 ≤ order.countOfDay ∧ order.countOfDay ≤ 30)
    (hdate : order.date ∈ Set.range formatter.string) :
    Holds formatter P ⟨flag, some order⟩ := by
  refine ⟨hitems, fun order' ho => ?_, fun order' ho => ?_, nofun⟩
  · obtain rfl := Option.some.inj ho
    exact hdays
  · obtain rfl := Option.some.inj ho
    exact hdate

theorem holds_init : Holds formatter P .init :=
  ⟨nofun, nofun, nofun, fun _ => rfl⟩

theorem Holds.of_current {order : Order} (h : self.Holds formatter P)
    (ho : self.currentOrder = some order) : ∀ item ∈ order.items, P item := by
  rw [← lines_of_some ho]
  exact h.items

theorem Holds.updateCountOfDay (h : self.Holds formatter P) {n : ℤ}
    (hn : 1 ≤ n ∧ n ≤ 30) : (self.updateCountOfDay n).1.Holds formatter P := by
  obtain ⟨flag, current⟩ := self
  cases current with
  | none => exact h
  | some order => exact .of_some h.items hn (h.date order rfl)

theorem Holds.updateDate (h : self.Holds formatter P) (newDate : Date) :
    (self.updateDate formatter newDate).1.Holds formatter P := by
  obtain ⟨flag, current⟩ := self
  cases current with
  | none => exact h
  | some order =>
      exact .of_some h.items (h.days order rfl) (Set.mem_range_self newDate)

/-- Without an order the flag is not set, so a new order gets a date. -/
theorem Holds.setOrder (h : self.Holds formatter P) {items : List BasketItem}
    (hitems : ∀ item ∈ items, P item) :
    (self.setOrder formatter now items).1.Holds formatter P := by
  cases hflag : self.isPutOrderProcess with
  | false =>
      have hdays : ∀ n, (self.currentOrder.map Order.countOfDay).getD 1 = n →
          1 ≤ n ∧ n ≤ 30 := by
        rintro n rfl
        cases ho : self.currentOrder with
        | none => exact ⟨le_rfl, by decide⟩
        | some order => exact h.days order ho
      obtain ⟨flag, current⟩ := self
      simp only at hflag
      subst hflag
      cases current with
      | none => exact .of_some hitems (hdays 1 rfl) (Set.mem_range_self _)
      | some order =>
          exact .of_some hitems (hdays _ rfl) (Set.mem_range_self _)
  | true =>
      have hcurrent : self.currentOrder ≠ none := by
        intro hnone
        rw [h.idle hnone] at hflag
        cases hflag
      obtain ⟨order, ho⟩ := Option.ne_none_iff_exists'.mp hcurrent
      rw [setOrder_hidden formatter now items hflag ho]
      exact .of_some hitems (h.days order ho) (h.date order ho)

theorem Holds.putOrder (h : self.Holds formatter P) (isConnected : Bool) :
    (self.putOrder isConnected).1.Holds formatter P := by
  cases ho : self.currentOrder with
  | none =>
      rw [BasketPresenter.putOrder, ho]
      exact h
  | some order =>
      simp only [BasketPresenter.putOrder, ho]
      split
      · exact h
      · split
        · exact .of_some (h.of_current ho) (h.days order ho) (h.date order ho)
        · exact h

theorem Holds.putOrderCompleted (h : self.Holds formatter P)
    (result : NetResult) :
    (self.putOrderCompleted formatter now result).1.Holds formatter P := by
  cases result with
  | failure => exact h
  | success message =>
      have hempty : Holds formatter P ⟨false, none⟩ :=
        ⟨nofun, nofun, nofun, fun _ => rfl⟩
      let presenter : BasketPresenter := ⟨false, none⟩
      have hset : Holds formatter P (presenter.setOrder formatter now []).1 :=
        hempty.setOrder (List.forall_mem_nil P)
      exact hset.updateDate now

theorem Holds.removeFromBasket (h : self.Holds formatter P) {index : ℕ}
    {r : BasketPresenter × List BasketEffect}
    (hr : self.removeFromBasket index = some r) : r.1.Holds formatter P := by
  cases ho : self.currentOrder with
  | none =>
      rw [BasketPresenter.removeFromBasket, ho] at hr
      obtain rfl := Option.some.inj hr
      exact h
  | some order =>
      rw [BasketPresenter.removeFromBasket, ho] at hr
      obtain ⟨item, -, rfl⟩ := Option.map_eq_some_iff.mp hr
      refine .of_some (fun item' hitem' => ?_) (h.days order ho)
        (h.date order ho)
      exact h.of_current ho item' (List.mem_of_mem_eraseIdx hitem')

end BasketPresenter

namespace Stepper

theorem tap_bounds {self self' : Stepper} {up : Bool}
    (h : self.tap up = some self') :
    self'.minimumValue = self.minimumValue ∧
      self'.maximumValue = self.maximumValue := by
  rw [tap] at h
  split at h
  · obtain rfl := Option.some.inj h
    exact ⟨rfl, rfl⟩
  · split at h
    · obtain rfl := Option.some.inj h
      exact ⟨rfl, rfl⟩
    · cases h

end Stepper

namespace BasketScreen

variable {s s' : BasketScreen}

/-- Items in the order or in a row satisfy `P`; the days and the date are such
as the view lets through. -/
structure Holds (formatter : DateFormatter Date) (P : BasketItem → Prop)
    (s : BasketScreen) : Prop where
  presenter : s.presenter.Holds formatter P
  rows : ∀ item ∈ s.view.rows, P item
  minimum : s.view.dayStepper.minimumValue = 1
  maximum : s.view.dayStepper.maximumValue = 30

theorem holds_start : start.Holds formatter P :=
  ⟨BasketPresenter.holds_init, nofun, rfl, rfl⟩

theorem dayStepper_after (s : BasketScreen)
    (r : BasketPresenter × List BasketEffect) :
    (s.after r).view.dayStepper = s.view.dayStepper := by
  obtain ⟨p, effects⟩ := r
  change (effects.foldl (BasketView.perform p.lines) s.view).dayStepper = _
  generalize s.view = view
  induction effects generalizing view with
  | nil => rfl
  | cons e rest ih =>
      rw [List.foldl_cons, ih]
      cases e <;> rfl

theorem Holds.after (h : s.Holds formatter P)
    {r : BasketPresenter × List BasketEffect}
    (hr : r.1.Holds formatter P) : (s.after r).Holds formatter P := by
  refine ⟨hr, ?_, ?_, ?_⟩
  · rcases rows_after s r with hrows | hrows
    · rw [hrows]
      exact h.rows
    · rw [hrows]
      exact hr.items
  · rw [dayStepper_after]
    exact h.minimum
  · rw [dayStepper_after]
    exact h.maximum

theorem Holds.stepperChanged (h : s.Holds formatter P) (up : Bool) :
    (s.stepperChanged up).Holds formatter P := by
  rw [BasketScreen.stepperChanged]
  split
  · exact h
  · next dayStepper htap =>
      obtain ⟨hmin, hmax⟩ := Stepper.tap_bounds htap
      have hlower := dayStepper.lower
      have hupper := dayStepper.upper
      rw [hmin, h.minimum] at hlower
      rw [hmax, h.maximum] at hupper
      exact Holds.after
        (s := { s with view := { s.view with
          dayStepper := dayStepper
          countDayLabel :=
            BasketView.countDayString ++ toString dayStepper.value } })
        ⟨h.presenter, h.rows, hmin.trans h.minimum, hmax.trans h.maximum⟩
        (h.presenter.updateCountOfDay ⟨hlower, hupper⟩)

theorem Holds.handle {e : BasketScreenEvent Date} (h : s.Holds formatter P)
    (he : e.Brings P) (hs : s.handle formatter e = some s') :
    s'.Holds formatter P := by
  -- the counters and the flag beside presenter and view play no part
  have hsame : ∀ {r : BasketPresenter × List BasketEffect} {n m : ℕ}
      {hidden : Bool}, r.1.Holds formatter P →
        Holds formatter P { s.after r with
          removals := n, orders := m, hidden := hidden } := fun hr =>
    ⟨(h.after hr).presenter, (h.after hr).rows, (h.after hr).minimum,
      (h.after hr).maximum⟩
  cases e with
  | snapshot items now =>
      obtain rfl := Option.some.inj hs
      exact hsame (h.presenter.setOrder he)
  | snapshotFailed | deleteFailed | removeFailed =>
      obtain rfl := Option.some.inj hs
      exact h.after h.presenter
  | stepperTapped up =>
      obtain rfl := Option.some.inj hs
      exact h.stepperChanged up
  | dateChanged newDate =>
      obtain rfl := Option.some.inj hs
      exact h.after (h.presenter.updateDate newDate)
  | removeTapped index =>
      obtain ⟨r, hr, rfl⟩ := Option.map_eq_some_iff.mp hs
      exact hsame (h.presenter.removeFromBasket hr)
  | removed =>
      simp only [BasketScreen.handle] at hs
      split at hs
      · cases hs
      · obtain ⟨r, hr, rfl⟩ := Option.map_eq_some_iff.mp hs
        obtain ⟨order, -, rfl⟩ := Option.map_eq_some_iff.mp hr
        exact hsame h.presenter
  | orderTapped isConnected =>
      obtain rfl := Option.some.inj hs
      exact hsame (h.presenter.putOrder isConnected)
  | orderAnswered result now =>
      simp only [BasketScreen.handle] at hs
      split at hs
      · cases hs
      · obtain rfl := Option.some.inj hs
        exact hsame (h.presenter.putOrderCompleted result)

/-- An order is only sent as the screen has it, and not empty. -/
theorem order_of_requests {e : BasketScreenEvent Date} {order : Order}
    (h : .putOrder order ∈ s.requests e) :
    s.presenter.currentOrder = some order ∧ order.items ≠ [] := by
  cases e with
  | removeTapped index =>
      cases ho : s.presenter.currentOrder with
      | none => simp [requests, BasketPresenter.removeFromBasket, ho] at h
      | some current =>
          cases hi : current.items[index]? <;>
            simp [requests, BasketPresenter.removeFromBasket, ho, hi] at h
  | orderTapped isConnected =>
      simp only [requests, BasketPresenter.putOrder] at h
      split at h
      · simp at h
      · next current ho =>
          split at h
          · simp at h
          · next hne =>
              split at h
              · obtain rfl : order = current := by simpa using h
                exact ⟨ho, hne⟩
              · simp at h
  | _ => cases h

theorem item_of_requests {e : BasketScreenEvent Date}
    {itemID dbItemID categoryID : String}
    (h : .removeFromBasket itemID dbItemID categoryID ∈ s.requests e) :
    ∃ item ∈ s.presenter.lines, item.itemID = itemID ∧
      item.dbItemID = dbItemID ∧ item.categoryID = categoryID := by
  cases e with
  | removeTapped index =>
      cases ho : s.presenter.currentOrder with
      | none => simp [requests, BasketPresenter.removeFromBasket, ho] at h
      | some current =>
          cases hi : current.items[index]? with
          | none =>
              simp [requests, BasketPresenter.removeFromBasket, ho, hi] at h
          | some item =>
              rw [BasketPresenter.lines_of_some ho]
              refine ⟨item, List.mem_of_getElem? hi, ?_⟩
              simpa [requests, BasketPresenter.removeFromBasket, ho, hi,
                eq_comm] using h
  | orderTapped isConnected =>
      simp only [requests, BasketPresenter.putOrder] at h
      split at h
      · simp at h
      · split at h
        · simp at h
        · split at h <;> simp at h
  | _ => cases h

end BasketScreen

/-! ## A page -/

/-- Every item a snapshot brings satisfies `Q`. -/
def CategoryEvent.Brings (Q : Item → Prop) : CategoryEvent → Prop
  | .snapshot items => ∀ item ∈ items, Q item
  | _ => True

namespace CategoryPresenter

variable {Q : Item → Prop} {self self' : CategoryPresenter}

/-- Items in either list of the presenter satisfy `Q`. -/
structure Holds (Q : Item → Prop) (p : CategoryPresenter) : Prop where
  items : ∀ items ∈ p.items, ∀ item ∈ items, Q item
  shown : ∀ items ∈ p.shownItems, ∀ item ∈ items, Q item

theorem Holds.of_same (h : self.Holds Q) (hi : self'.items = self.items)
    (hs : self'.shownItems = self.shownItems) : self'.Holds Q :=
  ⟨by rw [hi]; exact h.items, by rw [hs]; exact h.shown⟩

theorem filtered_subset {items shown : List Item}
    (h : self.filtered items = some shown) : shown ⊆ items := by
  induction items generalizing shown with
  | nil =>
      obtain rfl := Option.some.inj h
      exact List.Subset.refl _
  | cons item rest ih =>
      obtain ⟨keep, -, h⟩ := Option.bind_eq_some_iff.mp h
      obtain ⟨shown', hrest, h⟩ := Option.bind_eq_some_iff.mp h
      obtain rfl := Option.some.inj h
      cases keep with
      | false => exact List.subset_cons_of_subset item (ih hrest)
      | true => exact List.cons_subset_cons item (ih hrest)

theorem Holds.filterItems (h : self.Holds Q)
    (hs : self.filterItems = some self') : self'.Holds Q := by
  obtain ⟨shown, hshown, hs⟩ := Option.bind_eq_some_iff.mp hs
  obtain rfl := Option.some.inj hs
  refine ⟨h.items, fun items hitems item hitem => ?_⟩
  obtain rfl := Option.some.inj hitems
  have hmem := filtered_subset hshown hitem
  cases hi : self.items with
  | none =>
      rw [hi] at hmem
      cases hmem
  | some items =>
      rw [hi] at hmem
      exact h.items items hi item hmem

theorem Holds.lowerCount
    (hcount : ∀ item n, Q item → Q { item with count := n })
    (h : self.Holds Q) {k : ℕ} {c : ℤ}
    (hs : self.lowerCount k c = some self') : self'.Holds Q := by
  cases hi : self.items with
  | none =>
      rw [CategoryPresenter.lowerCount, hi] at hs
      obtain rfl := Option.some.inj hs
      exact h
  | some items =>
      simp only [CategoryPresenter.lowerCount, hi] at hs
      split at hs
      · obtain rfl := Option.some.inj hs
        refine ⟨fun items' hitems' item hitem => ?_, h.shown⟩
        obtain rfl := Option.some.inj hitems'
        obtain ⟨i, hlt, rfl⟩ :=
          FilteredScreen.mem_lowered_iff.mp hitem
        exact hcount _ _ (h.items items hi _ (List.getElem_mem hlt))
      · cases hs

end CategoryPresenter

namespace CategoryScreen

variable {Q : Item → Prop} {s s' : CategoryScreen}

/-- Items in the presenter's lists and in the rows satisfy `Q`. -/
structure Holds (Q : Item → Prop) (s : CategoryScreen) : Prop where
  presenter : s.presenter.Holds Q
  rows : ∀ items ∈ s.view.items, ∀ item ∈ items, Q item

theorem holds_start : start.Holds Q := ⟨⟨nofun, nofun⟩, nofun⟩

theorem Holds.showItems (h : s.presenter.Holds Q) : s.showItems.Holds Q := by
  refine ⟨⟨?_, ?_⟩, ?_⟩
  · rw [items_showItems]
    exact h.items
  · rw [shownItems_showItems]
    exact h.shown
  · rw [shown_showItems]
    exact h.shown

theorem Holds.handle (hcount : ∀ item n, Q item → Q { item with count := n })
    {e : CategoryEvent} (h : s.Holds Q) (he : e.Brings Q)
    (hs : s.handle e = some s') : s'.Holds Q := by
  cases e with
  | snapshot items =>
      obtain rfl := Option.some.inj hs
      have hitems : ∀ items' ∈ some items, ∀ item ∈ items', Q item := by
        intro items' hi
        obtain rfl := Option.some.inj hi
        exact he
      exact Holds.showItems ⟨hitems, hitems⟩
  | snapshotFailed | addFailed =>
      obtain rfl := Option.some.inj hs
      exact ⟨h.presenter, h.rows⟩
  | manufacturerAppended name | manufacturerRedused name =>
      obtain rfl := Option.some.inj hs
      exact ⟨h.presenter.of_same rfl rfl, h.rows⟩
  | filtersClosed minCost maxCost =>
      obtain ⟨p, hp, hs⟩ := Option.bind_eq_some_iff.mp hs
      obtain rfl := Option.some.inj hs
      have hset : (s.presenter.setCostRange minCost maxCost).Holds Q :=
        h.presenter.of_same rfl rfl
      exact Holds.showItems (s := { s with presenter := p })
        (hset.filterItems hp)
  | addTapped k count isConnectedToNetwork =>
      obtain ⟨item, -, rfl⟩ := Option.map_eq_some_iff.mp hs
      rw [addItemInBasket]
      split
      · exact ⟨h.presenter, h.rows⟩
      · exact ⟨h.presenter, h.rows⟩
  | added k =>
      obtain ⟨add, -, hs⟩ := Option.bind_eq_some_iff.mp hs
      obtain ⟨p, hp, hs⟩ := Option.bind_eq_some_iff.mp hs
      obtain rfl := Option.some.inj hs
      have hlowered : p.Holds Q := h.presenter.lowerCount hcount hp
      refine Holds.showItems ⟨hlowered.items, fun items hitems item hitem => ?_⟩
      obtain ⟨items', hitems', rfl⟩ := Option.map_eq_some_iff.mp hitems
      exact hlowered.items items' hitems' item (List.mem_filter.mp hitem).1

theorem Holds.row (h : s.Holds Q) {k : ℕ} {item : Item}
    (hk : s.row k = some item) : Q item := by
  obtain ⟨items, hitems, hi⟩ := Option.bind_eq_some_iff.mp hk
  exact h.rows items hitems item (List.mem_of_getElem? hi)

end CategoryScreen

end PhoRent
