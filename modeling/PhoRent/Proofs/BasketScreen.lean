import PhoRent.App.BasketView

/-!
# What the basket screen shows

Four things are on display: the rows, the days, the date and the total. Each
handler brings some of them up to date and leaves the others. While a request
is under way the screen may lag behind the order it stands for; once nothing
is under way it should not.

Three handlers break this. Nothing sets the stepper back when an order has
been placed. A tap on the stepper before the first snapshot is shown and
stored nowhere. And `isPutOrderProcess`, once set, is only taken back when the
order succeeds, so after a failure snapshots are kept from the view for good.
-/

namespace PhoRent

open Machine BasketView

/-! ## What the presenter's methods say -/

namespace BasketPresenter

variable {Date : Type} (formatter : DateFormatter Date) (now : Date)
  (items : List BasketItem) {self : BasketPresenter}

theorem setOrder_shown (h : self.isPutOrderProcess = false) :
    ∃ order : Order, order.items = items ∧
      order.countOfDay = (self.currentOrder.map Order.countOfDay).getD 1 ∧
      self.setOrder formatter now items = (⟨false, some order⟩,
        [.closeAlert, .updateTable, .updateTotal
          ((⟨false, some order⟩ : BasketPresenter).countTotal (some items)),
          .updateDateLabel order.date]) := by
  obtain ⟨flag, current⟩ := self
  simp only at h
  subst h
  cases current with
  | none => exact ⟨⟨_, _, _, _, items⟩, rfl, rfl, rfl⟩
  | some order => exact ⟨⟨_, _, _, _, items⟩, rfl, rfl, rfl⟩

theorem setOrder_hidden {order : Order} (h : self.isPutOrderProcess = true)
    (ho : self.currentOrder = some order) :
    self.setOrder formatter now items =
      (⟨true, some { order with items := items }⟩, []) := by
  obtain ⟨flag, current⟩ := self
  simp only at h ho
  subst h ho
  rfl

theorem putOrderDone_shown (self : BasketPresenter) :
    ∃ (order : Order) (date : String), order.items = [] ∧
      order.countOfDay = 1 ∧
      self.putOrderDone formatter now = (⟨false, some order⟩,
        [.closeAlert, .updateTable, .updateTotal 0, .updateDateLabel date,
          .clearData, .updateDateLabel order.date,
          .showAlert "Заказ оформлен"]) :=
  ⟨⟨_, _, _, _, []⟩, _, rfl, rfl, rfl⟩

end BasketPresenter

namespace BasketScreen

variable {Date : Type} {formatter : DateFormatter Date}

/-- What is on the screen is the current order, and a tap on the button would
send it. Without an order there are no rows and the days are 1. -/
structure Shows (s : BasketScreen) : Prop where
  days : s.view.countDayLabel =
    dayText ((s.presenter.currentOrder.map Order.countOfDay).getD 1)
  stepper : s.view.dayStepper.value =
    (s.presenter.currentOrder.map Order.countOfDay).getD 1
  rows : s.view.rows = (s.presenter.currentOrder.map Order.items).getD []
  date : ∀ order, s.presenter.currentOrder = some order →
    s.view.dateLabel = some (dateText order.date)
  total : ∀ order, s.presenter.currentOrder = some order →
    s.view.totalLabel = totalText
      ((order.items.map fun item => item.cost * item.count).sum *
        order.countOfDay)
  sent : ∀ isConnected, ∀ order ∈
    BasketPresenter.ordersSent (s.presenter.putOrder isConnected).2,
    order.items = s.view.rows ∧
      s.view.countDayLabel = dayText order.countOfDay ∧
      s.view.dateLabel = some (dateText order.date)

/-- Where none of the three comes in. The stepper is only moved while there is
an order. An order is placed for one day. And a snapshot that has been kept
from the view is followed by something that will bring it up to date: an
order or a removal is still under way. -/
def Followed : BasketScreen → BasketScreenEvent Date → Prop
  | s, .snapshot _ _ => s.presenter.isPutOrderProcess = false ∨
      0 < s.orders ∨ 0 < s.removals
  | s, .stepperTapped up => s.view.dayStepper.tap up ≠ none →
      s.presenter.currentOrder ≠ none
  | s, .orderAnswered (.success _) _ => s.view.dayStepper.value = 1
  | s, .orderAnswered .failure _ =>
      s.hidden = false ∨ 1 < s.orders ∨ 0 < s.removals
  | _, _ => True

/-! ## The invariant -/

structure Tracks (s : BasketScreen) : Prop where
  days : s.view.countDayLabel = dayText s.view.dayStepper.value
  stepper : s.view.dayStepper.value =
    (s.presenter.currentOrder.map Order.countOfDay).getD 1
  date : ∀ order, s.presenter.currentOrder = some order →
    s.view.dateLabel = some (dateText order.date)
  -- without an order there is nothing that could be under way
  idle : s.presenter.currentOrder = none →
    s.presenter.isPutOrderProcess = false ∧ s.removals = 0
  hidden : s.hidden = true → 0 < s.orders ∨ 0 < s.removals
  rows : s.removals = 0 → s.hidden = false →
    s.view.rows = (s.presenter.currentOrder.map Order.items).getD []
  total : s.removals = 0 → s.hidden = false → ∀ order,
    s.presenter.currentOrder = some order →
    s.view.totalLabel = totalText
      (s.presenter.countTotal (some order.items))

theorem Tracks.shows {s : BasketScreen} (h : s.Tracks)
    (hremovals : s.removals = 0) (horders : s.orders = 0) : s.Shows := by
  have hhidden : s.hidden = false := by
    by_contra hh
    have := h.hidden (by simpa using hh)
    omega
  have hdays := h.days
  rw [h.stepper] at hdays
  have hrows := h.rows hremovals hhidden
  refine ⟨hdays, h.stepper, hrows, h.date, fun order ho => ?_,
    fun isConnected order hsent => ?_⟩
  · rw [h.total hremovals hhidden order ho, BasketPresenter.countTotal, ho]
    rfl
  · rcases s.presenter.ordersSent_putOrder isConnected with
      hnone | ⟨order', ho, -, hone⟩
    · rw [hnone] at hsent
      cases hsent
    · rw [hone, List.mem_singleton] at hsent
      subst hsent
      simp only [ho, Option.map_some, Option.getD_some] at hrows hdays
      exact ⟨hrows.symm, hdays, h.date order ho⟩

theorem tracks_start : start.Tracks where
  days := by decide
  stepper := by decide
  date order h := by cases h
  idle _ := ⟨rfl, rfl⟩
  hidden h := by cases h
  rows _ _ := rfl
  total _ _ order h := by cases h

/-! ## Every handler keeps it -/

section Steps

variable {s s' : BasketScreen}

theorem Tracks.snapshot (h : s.Tracks) {items : List BasketItem} {now : Date}
    (hok : Followed s (.snapshot items now))
    (hs : s.handle formatter (.snapshot items now) = some s') : s'.Tracks := by
  obtain rfl := Option.some.inj hs
  cases hflag : s.presenter.isPutOrderProcess with
  | false =>
      obtain ⟨order, rfl, hdays, hset⟩ :=
        BasketPresenter.setOrder_shown formatter now items hflag
      rw [hset]
      refine ⟨h.days, ?_, ?_, ?_, nofun, fun _ _ => rfl, ?_⟩
      · rw [after]
        simp only [Option.map_some, Option.getD_some, hdays]
        exact h.stepper
      · intro order' ho
        obtain rfl := Option.some.inj ho
        rfl
      · intro ho
        cases ho
      · intro _ _ order' ho
        obtain rfl := Option.some.inj ho
        rfl
  | true =>
      have hcurrent : s.presenter.currentOrder ≠ none := by
        intro hnone
        rw [(h.idle hnone).1] at hflag
        cases hflag
      obtain ⟨order, ho⟩ := Option.ne_none_iff_exists'.mp hcurrent
      rw [BasketPresenter.setOrder_hidden formatter now items hflag ho]
      have hstepper := h.stepper
      rw [ho] at hstepper
      refine ⟨h.days, hstepper, ?_, ?_, ?_, ?_, ?_⟩
      · intro order' ho'
        obtain rfl := Option.some.inj ho'
        exact h.date order ho
      · intro hnone
        cases hnone
      · intro _
        simp only [Followed, hflag, Bool.true_eq_false, false_or] at hok
        exact hok
      · intro _ hh
        cases hh
      · intro _ hh
        cases hh

theorem Tracks.stepperTapped (h : s.Tracks) {up : Bool}
    (hok : Followed s (.stepperTapped up : BasketScreenEvent Date)) :
    (s.stepperChanged up).Tracks := by
  rw [stepperChanged]
  cases htap : s.view.dayStepper.tap up with
  | none => exact h
  | some dayStepper =>
      obtain ⟨order, ho⟩ := Option.ne_none_iff_exists'.mp
        (hok (by rw [htap]; exact Option.some_ne_none _))
      simp only [BasketPresenter.updateCountOfDay, ho, Option.map_some]
      refine ⟨rfl, rfl, ?_, ?_, h.hidden, fun hr hh => ?_, ?_⟩
      · intro order' ho'
        obtain rfl := Option.some.inj ho'
        exact h.date order ho
      · intro hnone
        cases hnone
      · have hrows := h.rows hr hh
        rw [ho] at hrows
        exact hrows
      · intro _ _ order' ho'
        obtain rfl := Option.some.inj ho'
        rfl

theorem Tracks.dateChanged (h : s.Tracks) (newDate : Date) :
    (s.after (s.presenter.updateDate formatter newDate)).Tracks := by
  obtain ⟨⟨flag, current⟩, view, removals, orders, hidden⟩ := s
  cases current with
  | none =>
      refine ⟨h.days, h.stepper, ?_, h.idle, h.hidden, h.rows, ?_⟩
      · intro order ho
        cases ho
      · intro _ _ order ho
        cases ho
  | some order =>
      refine ⟨h.days, h.stepper, ?_, ?_, h.hidden, h.rows, ?_⟩
      · intro order' ho
        obtain rfl := Option.some.inj ho
        rfl
      · intro hnone
        cases hnone
      · intro hr hh order' ho
        obtain rfl := Option.some.inj ho
        exact h.total hr hh order rfl

theorem Tracks.removeTapped (h : s.Tracks) {index : ℕ}
    (hs : s.handle formatter (.removeTapped index) = some s') :
    s'.Tracks := by
  obtain ⟨r, hr, rfl⟩ := Option.map_eq_some_iff.mp hs
  obtain ⟨⟨flag, current⟩, view, removals, orders, hidden⟩ := s
  cases current with
  | none =>
      obtain rfl := Option.some.inj hr
      exact h
  | some order =>
      obtain ⟨item, -, rfl⟩ := Option.map_eq_some_iff.mp hr
      -- the rows wait for the block that is queued now
      have hqueued : 0 < removals + 1 := by omega
      refine ⟨h.days, h.stepper, ?_, ?_, fun _ => Or.inr hqueued, ?_, ?_⟩
      · intro order' ho
        obtain rfl := Option.some.inj ho
        exact h.date order rfl
      · intro hnone
        cases hnone
      · intro hzero
        cases hzero
      · intro hzero
        cases hzero

theorem Tracks.removed (h : s.Tracks)
    (hs : s.handle formatter (.removed : BasketScreenEvent Date) = some s') :
    s'.Tracks := by
  simp only [handle] at hs
  split at hs
  · cases hs
  · obtain ⟨r, hr, rfl⟩ := Option.map_eq_some_iff.mp hs
    obtain ⟨⟨flag, current⟩, view, removals, orders, hidden⟩ := s
    obtain ⟨order, rfl, rfl⟩ := Option.map_eq_some_iff.mp hr
    refine ⟨h.days, h.stepper, h.date, nofun,
      nofun, fun _ _ => rfl, ?_⟩
    intro _ _ order' ho
    obtain rfl := Option.some.inj ho
    rfl

theorem Tracks.orderTapped (h : s.Tracks) {isConnected : Bool}
    (hs : s.handle formatter (.orderTapped isConnected : BasketScreenEvent Date) =
      some s') : s'.Tracks := by
  obtain rfl := Option.some.inj hs
  obtain ⟨⟨flag, current⟩, view, removals, orders, hidden⟩ := s
  cases current with
  | none => exact h
  | some order =>
      simp only [BasketPresenter.putOrder]
      split
      · exact h
      · split
        · refine ⟨h.days, h.stepper, h.date, nofun,
            fun hh => ?_, h.rows, h.total⟩
          exact Or.inl (Nat.succ_pos orders)
        · exact h

theorem Tracks.orderAnswered (h : s.Tracks) {result : NetResult} {now : Date}
    (hok : Followed s (.orderAnswered result now))
    (hs : s.handle formatter (.orderAnswered result now) = some s') :
    s'.Tracks := by
  simp only [handle] at hs
  split at hs
  · cases hs
  next hne =>
    obtain rfl := Option.some.inj hs
    cases result with
    | failure =>
        refine ⟨h.days, h.stepper, h.date, h.idle, fun hh => ?_, ?_, ?_⟩
        · have hhidden : s.hidden = true := by simpa using hh
          simp only [Followed, hhidden, Bool.true_eq_false, false_or] at hok
          exact hok.imp (fun h1 => Nat.sub_pos_of_lt h1) id
        · intro hr hh
          exact h.rows hr (by simpa using hh)
        · intro hr hh
          exact h.total hr (by simpa using hh)
    | success message =>
        obtain ⟨order, date, hitems, hcount, hdone⟩ :=
          BasketPresenter.putOrderDone_shown formatter now s.presenter
        simp only [BasketPresenter.putOrderCompleted, hdone]
        have hstepper : s.view.dayStepper.value = 1 := hok
        refine ⟨?_, ?_, ?_, fun ho => (Option.some_ne_none _ ho).elim,
          fun hh => ?_, fun _ _ => rfl, ?_⟩
        · simp only [after, List.foldl_cons, List.foldl_nil, perform, hstepper]
          rfl
        · simp only [after, List.foldl_cons, List.foldl_nil, perform, hstepper,
            Option.map_some, Option.getD_some, hcount]
        · intro order' ho
          obtain rfl := Option.some.inj ho
          rfl
        · simp at hh
        · intro _ _ order' ho
          obtain rfl := Option.some.inj ho
          simp only [after, hitems, BasketPresenter.countTotal,
            Option.getD_some, List.map_nil, List.sum_nil, zero_mul]
          rfl

end Steps

/-- The step lemma: a handler that runs under the conditions keeps the screen
in step with the order. -/
theorem Tracks.handle {s s' : BasketScreen} {e : BasketScreenEvent Date}
    (h : s.Tracks) (hok : Followed s e)
    (hs : s.handle formatter e = some s') : s'.Tracks := by
  cases e with
  | snapshot items now => exact h.snapshot hok hs
  | stepperTapped up =>
      obtain rfl := Option.some.inj hs
      exact h.stepperTapped hok
  | dateChanged newDate =>
      obtain rfl := Option.some.inj hs
      exact h.dateChanged newDate
  | removeTapped index => exact h.removeTapped hs
  | removed => exact h.removed hs
  | orderTapped isConnected => exact h.orderTapped hs
  | orderAnswered result now => exact h.orderAnswered hok hs
  | snapshotFailed | removeFailed | deleteFailed =>
      -- alerts only
      obtain rfl := Option.some.inj hs
      exact h

/-- Whatever happens in whatever order, under the conditions the screen shows
the order whenever no request is under way. -/
theorem shows_of_run {s : BasketScreen}
    (hrun : Run (BasketScreen.handle formatter) Followed start s)
    (hremovals : s.removals = 0) (horders : s.orders = 0) : s.Shows :=
  Tracks.shows (hrun.invariant (I := Tracks) (fun _ _ _ h => h.handle)
    tracks_start) hremovals horders

instance (s : BasketScreen) :
    DecidablePred (Followed s : BasketScreenEvent Date → Prop)
  | .snapshot _ _ => inferInstanceAs (Decidable (_ ∨ _))
  | .stepperTapped _ => inferInstanceAs (Decidable (_ → _))
  | .orderAnswered (.success _) _ => inferInstanceAs (Decidable (_ = _))
  | .orderAnswered .failure _ => inferInstanceAs (Decidable (_ ∨ _))
  | .snapshotFailed | .dateChanged _ | .removeTapped _ | .removed
  | .removeFailed | .orderTapped _ | .deleteFailed _ => .isTrue trivial

def plainDates : DateFormatter String := ⟨id, some⟩

/-- Two days, back to one, a line removed while an order that will fail is on
its way and the next snapshot comes in. -/
theorem shows_of_run_camera :
    ∃ s, Run (BasketScreen.handle plainDates) Followed start s ∧
      s.removals = 0 ∧ s.orders = 0 ∧
      s.presenter.isPutOrderProcess = true ∧ s.Shows := by
  obtain ⟨s, hrun, hremovals, horders, hflag⟩ :
      ∃ s, Run (BasketScreen.handle plainDates) Followed start s ∧
      s.removals = 0 ∧ s.orders = 0 ∧ s.presenter.isPutOrderProcess = true :=
    exists_run_of_play
      [.snapshot [cameraItem, { cameraItem with itemID := "m" }] "01.06.2020",
        .stepperTapped true, .stepperTapped false, .orderTapped true,
        .removeTapped 0, .snapshot [cameraItem] "01.06.2020",
        .orderAnswered .failure "01.06.2020", .removed]
      (by decide +kernel)
  exact ⟨s, hrun, hremovals, horders, hflag,
    shows_of_run hrun hremovals horders⟩

/-- An order for two days is placed, and the stepper still stands at two. The
stepper is moved before there is an order. An order fails, and then a line
goes out of the basket that stays on the screen. -/
theorem shows_fails :
    (∃ s, Run (BasketScreen.handle plainDates) (fun _ _ => True) start s ∧
      s.removals = 0 ∧ s.orders = 0 ∧ s.view.countDayLabel = dayText 1 ∧
      s.view.dayStepper.value = 2 ∧ ¬ s.Shows) ∧
    (∃ s, Run (BasketScreen.handle plainDates) (fun _ _ => True) start s ∧
      s.removals = 0 ∧ s.orders = 0 ∧ s.presenter.currentOrder = none ∧
      s.view.countDayLabel = dayText 2 ∧ ¬ s.Shows) ∧
    ∃ s, Run (BasketScreen.handle plainDates) (fun _ _ => True) start s ∧
      s.removals = 0 ∧ s.orders = 0 ∧ s.view.rows = [cameraItem] ∧
      s.presenter.currentOrder.map Order.items = some [] ∧ ¬ s.Shows := by
  refine ⟨?_, ?_, ?_⟩
  · obtain ⟨s, hrun, hremovals, horders, hlabel, hvalue, hdays⟩ :
        ∃ s, Run (BasketScreen.handle plainDates) (fun _ _ => True) start s ∧
        s.removals = 0 ∧ s.orders = 0 ∧ s.view.countDayLabel = dayText 1 ∧
        s.view.dayStepper.value = 2 ∧
        s.presenter.currentOrder.map Order.countOfDay = some 1 :=
      exists_run_of_play
        [.snapshot [cameraItem] "01.06.2020", .stepperTapped true,
          .orderTapped true, .orderAnswered (.success "") "01.06.2020"]
        (by decide +kernel)
    refine ⟨s, hrun, hremovals, horders, hlabel, hvalue, fun h => ?_⟩
    have hstepper := h.stepper
    rw [hvalue, hdays] at hstepper
    cases hstepper
  · obtain ⟨s, hrun, hremovals, horders, hnone, hlabel, hvalue⟩ :
        ∃ s, Run (BasketScreen.handle plainDates) (fun _ _ => True) start s ∧
        s.removals = 0 ∧ s.orders = 0 ∧ s.presenter.currentOrder = none ∧
        s.view.countDayLabel = dayText 2 ∧ s.view.dayStepper.value = 2 :=
      exists_run_of_play [.stepperTapped true] (by decide +kernel)
    refine ⟨s, hrun, hremovals, horders, hnone, hlabel, fun h => ?_⟩
    have hstepper := h.stepper
    rw [hvalue, hnone] at hstepper
    cases hstepper
  · obtain ⟨s, hrun, hremovals, horders, hrows, hitems⟩ :
        ∃ s, Run (BasketScreen.handle plainDates) (fun _ _ => True) start s ∧
        s.removals = 0 ∧ s.orders = 0 ∧ s.view.rows = [cameraItem] ∧
        s.presenter.currentOrder.map Order.items = some [] :=
      exists_run_of_play
        [.snapshot [cameraItem] "01.06.2020", .orderTapped true,
          .orderAnswered .failure "01.06.2020", .snapshot [] "01.06.2020"]
        (by decide +kernel)
    refine ⟨s, hrun, hremovals, horders, hrows, hitems, fun h => ?_⟩
    have hshown := h.rows
    rw [hrows, hitems] at hshown
    cases hshown

end BasketScreen

end PhoRent
