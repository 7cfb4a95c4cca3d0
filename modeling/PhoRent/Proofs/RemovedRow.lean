import PhoRent.Proofs.BasketScreen

/-!
# Removing a row of the basket

The button in a row knows the number of the row. It asks the user first, and
only the answer takes the line with this number out of the order. Snapshots
may come in between, and while an order is being sent they do not even show.
Nor do the rows follow a removal before its block has run.

So the line displayed is taken out exactly if the order has it at this very
position by then. Otherwise another line goes, in the app and on the server,
or the index is out of range.
-/

namespace PhoRent

open Machine

namespace BasketPresenter

def lines (self : BasketPresenter) : List BasketItem :=
  (self.currentOrder.map Order.items).getD []

/-- Confirming at `index` removes the displayed line, wherever it is by now,
and asks the server for the same. If the line is gone nothing happens. -/
def RemovesLine (self : BasketPresenter) (index : ℕ) (line : BasketItem) :
    Prop :=
  ∃ r, self.removeFromBasket index = some r ∧
    ((∃ j, ∃ item ∈ self.lines[j]?, item.itemID = line.itemID ∧
        r.1.lines = self.lines.eraseIdx j ∧
        BasketEffect.removeFromBasket item.itemID item.dbItemID
          item.categoryID ∈ r.2) ∨
      (line.itemID ∉ self.lineIDs ∧ r = (self, [])))

section Methods

variable {Date : Type} {formatter : DateFormatter Date} {now : Date}
  {self : BasketPresenter}

theorem lines_of_some {order : Order} (h : self.currentOrder = some order) :
    self.lines = order.items := by
  rw [lines, h, Option.map_some, Option.getD_some]

@[simp] theorem lines_setOrder (items : List BasketItem) :
    (self.setOrder formatter now items).1.lines = items := by
  simp only [setOrder]
  split
  · cases self.currentOrder <;> rfl
  · cases self.currentOrder <;> rfl

theorem currentOrder_setOrder (items : List BasketItem) :
    (self.setOrder formatter now items).1.currentOrder ≠ none := by
  simp only [setOrder]
  split
  · cases self.currentOrder <;> exact Option.some_ne_none _
  · cases self.currentOrder <;> exact Option.some_ne_none _

theorem currentOrder_updateDate (newDate : Date) :
    (self.updateDate formatter newDate).1.currentOrder = none ↔
      self.currentOrder = none := by
  simp only [updateDate, Option.map_eq_none_iff]

theorem currentOrder_updateCountOfDay (n : ℤ) :
    (self.updateCountOfDay n).1.currentOrder = none ↔
      self.currentOrder = none := by
  simp only [updateCountOfDay, Option.map_eq_none_iff]

theorem currentOrder_putOrder (isConnected : Bool) :
    (self.putOrder isConnected).1.currentOrder = self.currentOrder := by
  unfold putOrder
  split
  · rfl
  · split
    · rfl
    · split <;> rfl

theorem currentOrder_putOrderCompleted {result : NetResult}
    (h : (self.putOrderCompleted formatter now result).1.currentOrder = none) :
    self.currentOrder = none := by
  cases result with
  | failure => exact h
  | success message =>
      rw [putOrderCompleted, putOrderDone] at h
      exact absurd ((currentOrder_updateDate now).mp h)
        (currentOrder_setOrder [])

theorem currentOrder_removeFromBasket {index : ℕ}
    {r : BasketPresenter × List BasketEffect}
    (h : self.removeFromBasket index = some r)
    (hr : r.1.currentOrder = none) : self.currentOrder = none := by
  cases ho : self.currentOrder with
  | none => rfl
  | some order =>
      rw [removeFromBasket, ho] at h
      obtain ⟨item, -, rfl⟩ := Option.map_eq_some_iff.mp h
      cases hr

theorem removesLine_iff {order : Order} (ho : self.currentOrder = some order)
    {index : ℕ} {line : BasketItem} :
    self.RemovesLine index line ↔
      order.items[index]?.map BasketItem.itemID = some line.itemID := by
  rw [RemovesLine, lines_of_some ho, removeFromBasket, ho,
    Option.map_eq_some_iff]
  constructor
  · rintro ⟨r, hr, hline⟩
    obtain ⟨item, hitem, rfl⟩ := Option.map_eq_some_iff.mp hr
    rcases hline with ⟨j, item', -, hid, -, hsent⟩ | ⟨-, hnone⟩
    · simp only [List.mem_cons, BasketEffect.removeFromBasket.injEq,
        reduceCtorEq, List.not_mem_nil, or_false] at hsent
      exact ⟨item, hitem, hsent.1.symm.trans hid⟩
    · cases congrArg Prod.snd hnone
  · rintro ⟨item, hitem, hid⟩
    refine ⟨_, Option.map_eq_some_iff.mpr ⟨item, hitem, rfl⟩, Or.inl ?_⟩
    exact ⟨index, item, hitem, hid, rfl, List.mem_cons_self ..⟩

end Methods

end BasketPresenter

/-! ## The screen -/

namespace BasketScreen

variable {Date : Type} {formatter : DateFormatter Date} {s s' : BasketScreen}

def snapshot (formatter : DateFormatter Date) (self : BasketScreen)
    (e : List BasketItem × Date) : BasketScreen :=
  { self.after (self.presenter.setOrder formatter e.2 e.1) with
    hidden := self.presenter.isPutOrderProcess }

def RowsOfOrder (s : BasketScreen) : Prop :=
  s.presenter.currentOrder = none → s.view.rows = []

theorem rows_perform (items : List BasketItem) (view : BasketView)
    (e : BasketEffect) : (view.perform items e).rows = view.rows ∨
      (view.perform items e).rows = items := by
  cases e with
  | updateTable => exact Or.inr rfl
  | _ => exact Or.inl rfl

theorem rows_after (s : BasketScreen)
    (r : BasketPresenter × List BasketEffect) :
    (s.after r).view.rows = s.view.rows ∨
      (s.after r).view.rows = r.1.lines := by
  obtain ⟨p, effects⟩ := r
  change (effects.foldl (BasketView.perform p.lines) s.view).rows = _ ∨
    (effects.foldl (BasketView.perform p.lines) s.view).rows = p.lines
  generalize s.view = view
  induction effects generalizing view with
  | nil => exact Or.inl rfl
  | cons e rest ih =>
      rw [List.foldl_cons]
      rcases ih (view.perform p.lines e) with h | h
      · rw [h]
        exact rows_perform p.lines view e
      · exact Or.inr h

/-- A method that has not made the order disappear leaves no rows without an
order. -/
theorem RowsOfOrder.after (h : s.RowsOfOrder)
    {r : BasketPresenter × List BasketEffect}
    (hr : r.1.currentOrder = none → s.presenter.currentOrder = none) :
    (s.after r).RowsOfOrder := by
  intro hnone
  change r.1.currentOrder = none at hnone
  rcases rows_after s r with hrows | hrows
  · rw [hrows]
    exact h (hr hnone)
  · rw [hrows, BasketPresenter.lines, hnone]
    rfl

theorem RowsOfOrder.stepperChanged (h : s.RowsOfOrder) (up : Bool) :
    (s.stepperChanged up).RowsOfOrder := by
  rw [BasketScreen.stepperChanged]
  split
  · exact h
  · exact RowsOfOrder.after (s := { s with view := _ }) h
      (BasketPresenter.currentOrder_updateCountOfDay _).mp

theorem RowsOfOrder.handle {e : BasketScreenEvent Date} (h : s.RowsOfOrder)
    (hs : s.handle formatter e = some s') : s'.RowsOfOrder := by
  cases e with
  | snapshot items now =>
      obtain rfl := Option.some.inj hs
      exact h.after fun hnone =>
        absurd hnone (BasketPresenter.currentOrder_setOrder items)
  | stepperTapped up =>
      obtain rfl := Option.some.inj hs
      exact h.stepperChanged up
  | dateChanged newDate =>
      obtain rfl := Option.some.inj hs
      exact h.after (BasketPresenter.currentOrder_updateDate newDate).mp
  | removeTapped index =>
      obtain ⟨r, hr, rfl⟩ := Option.map_eq_some_iff.mp hs
      exact h.after (BasketPresenter.currentOrder_removeFromBasket hr)
  | removed =>
      simp only [BasketScreen.handle] at hs
      split at hs
      · cases hs
      · obtain ⟨r, hr, rfl⟩ := Option.map_eq_some_iff.mp hs
        obtain ⟨order, ho, rfl⟩ := Option.map_eq_some_iff.mp hr
        exact h.after (r := (s.presenter, _)) id
  | orderTapped isConnected =>
      obtain rfl := Option.some.inj hs
      exact h.after fun hnone =>
        (BasketPresenter.currentOrder_putOrder isConnected).symm.trans hnone
  | orderAnswered result now =>
      simp only [BasketScreen.handle] at hs
      split at hs
      · cases hs
      · obtain rfl := Option.some.inj hs
        exact h.after BasketPresenter.currentOrder_putOrderCompleted
  | snapshotFailed | removeFailed | deleteFailed =>
      obtain rfl := Option.some.inj hs
      exact h.after id

theorem rowsOfOrder_of_run
    (h : Run (BasketScreen.handle formatter) (fun _ _ => True) start s) :
    s.RowsOfOrder :=
  h.invariant (fun _ _ _ h _ => h.handle) fun _ => rfl

theorem lines_snapshots (l : List (List BasketItem × Date))
    (s : BasketScreen) :
    (l.foldl (snapshot formatter) s).presenter.lines =
      (l.getLast?.map Prod.fst).getD s.presenter.lines := by
  induction l generalizing s with
  | nil => rfl
  | cons e rest ih =>
      rw [List.foldl_cons, ih, List.getLast?_cons]
      cases rest.getLast? with
      | none => exact BasketPresenter.lines_setOrder e.1
      | some e' => rfl

theorem currentOrder_snapshots (l : List (List BasketItem × Date))
    (h : s.presenter.currentOrder ≠ none) :
    (l.foldl (snapshot formatter) s).presenter.currentOrder ≠ none := by
  induction l generalizing s with
  | nil => exact h
  | cons e rest ih => exact ih (BasketPresenter.currentOrder_setOrder e.1)

/-- A row of any basket the screen has come to show is pressed, any snapshots
are handled, and the user confirms. The displayed line is what is removed, here
and on the server, exactly if it stands at the row's number by then: in the
last of the snapshots, or in the order as it was. -/
theorem removes_line_iff
    (h : Run (BasketScreen.handle formatter) (fun _ _ => True) start s)
    {index : ℕ} {line : BasketItem} (hrow : s.view.rows[index]? = some line)
    (l : List (List BasketItem × Date)) :
    (l.foldl (snapshot formatter) s).presenter.RemovesLine index line ↔
      ((l.getLast?.map Prod.fst).getD s.presenter.lines)[index]?.map
        BasketItem.itemID = some line.itemID := by
  have hcurrent : s.presenter.currentOrder ≠ none := by
    intro hnone
    rw [rowsOfOrder_of_run h hnone] at hrow
    cases hrow
  obtain ⟨order, ho⟩ := Option.ne_none_iff_exists'.mp
    (currentOrder_snapshots l hcurrent)
  rw [← lines_snapshots l s,
    BasketPresenter.lines_of_some ho, BasketPresenter.removesLine_iff ho]

def cameraTwice : List BasketItem :=
  [cameraItem, { cameraItem with itemID := "m", count := 1 }]

/-- The second row, with its count changed by a snapshot in between. -/
theorem removes_line_camera :
    ∃ s, Run (BasketScreen.handle plainDates) (fun _ _ => True) start s ∧
      s.view.rows = cameraTwice ∧
      ([([cameraItem, { cameraItem with itemID := "m", count := 4 }],
        "01.06.2020")].foldl (snapshot plainDates) s).presenter.RemovesLine 1
          { cameraItem with itemID := "m", count := 1 } := by
  obtain ⟨s, hrun, hrows⟩ :
      ∃ s, Run (BasketScreen.handle plainDates) (fun _ _ => True) start s ∧
        s.view.rows = cameraTwice :=
    exists_run_of_play [.snapshot cameraTwice "01.06.2020"] (by decide +kernel)
  refine ⟨s, hrun, hrows, (removes_line_iff hrun (by rw [hrows]; rfl) _).mpr ?_⟩
  rfl

/-- The first line is gone by the time the user confirms: the second is removed
in its place. If the pressed row was the second, there is nothing there any
more and the index is out of range. -/
theorem removes_line_fails :
    ∃ s, Run (BasketScreen.handle plainDates) (fun _ _ => True) start s ∧
      s.view.rows = cameraTwice ∧
      ¬ ([(cameraTwice.tail, "01.06.2020")].foldl
        (snapshot plainDates) s).presenter.RemovesLine 0 cameraItem ∧
      ([([cameraItem], "01.06.2020")].foldl
        (snapshot plainDates) s).presenter.removeFromBasket 1 = none := by
  obtain ⟨s, hrun, hrows, hsent, htrap⟩ :
      ∃ s, Run (BasketScreen.handle plainDates) (fun _ _ => True) start s ∧
        s.view.rows = cameraTwice ∧
        (([(cameraTwice.tail, "01.06.2020")].foldl (snapshot plainDates)
          s).presenter.currentOrder.map Order.items = some cameraTwice.tail) ∧
        ([([cameraItem], "01.06.2020")].foldl
          (snapshot plainDates) s).presenter.removeFromBasket 1 = none :=
    exists_run_of_play [.snapshot cameraTwice "01.06.2020"] (by decide +kernel)
  refine ⟨s, hrun, hrows, fun h => ?_, htrap⟩
  obtain ⟨order, ho, hitems⟩ := Option.map_eq_some_iff.mp hsent
  rw [BasketPresenter.removesLine_iff ho, hitems] at h
  exact absurd h (by decide)

end BasketScreen

end PhoRent
