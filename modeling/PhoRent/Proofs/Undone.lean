import Mathlib.Data.List.Permutation
import PhoRent.Proofs.AddFromRow
import PhoRent.Proofs.BasketScreen
import PhoRent.Proofs.CompletedOnce

/-!
# Calls that fail

The two methods that call a function of the backend report success before the
call has gone out, and the error on top of that when it comes. The presenters
do their part at once or with the success: a line is taken out of the order, a
count is lowered and the list filtered anew. The failure is only told to the
user.

So nothing is ever undone. An add leaves things as they were if there was
nothing to do: no count to lower, and the shown list already without the items
that are used up. A line removed is always gone.
-/

namespace PhoRent

open Requests

/-! ## The completions of a call that fails -/

/-- The call is answered with an error of the functions, and its completions
are handled in this order. -/
def NetMethod.FailsWith (m : NetMethod) (l : List Completion) : Prop :=
  ∃ p, Method.Run m m.start p ∧ p.inFlight = [] ∧
    (∀ e ∈ p.log, e.2 = .failure ⟨FunctionsErrorDomain⟩) ∧ l.Perm p.called

def completeAll {σ : Type} (complete : σ → NetResult → Option σ) :
    List Completion → σ → Option σ
  | [], s => some s
  | c :: rest, s => do
      let result ← c.netResult?
      let s ← complete s result
      completeAll complete rest s

/-- In whichever order the completions of the failed call come, in the end
there is to be seen what was to be seen before. -/
def NetMethod.Undone {σ τ : Type} (m : NetMethod)
    (complete : σ → NetResult → Option σ) (shown : σ → τ) (before sent : σ) :
    Prop :=
  ∀ l, m.FailsWith l →
    ∃ s, completeAll complete l sent = some s ∧ shown s = shown before

section Callable

variable {op : NetOp} {text : String}

theorem callable_failsWith {l : List Completion} :
    (NetworkService.callable op text).FailsWith l ↔
      l.Perm [.message text, .failure ⟨FunctionsErrorDomain⟩] := by
  constructor
  · rintro ⟨p, hrun, hdone, hfail, hperm⟩
    obtain ⟨reply, hlog, hcalled⟩ := NetworkService.oneShot_log
      (fun _ r => by cases r <;> rfl) rfl hrun hdone
    have hreply : reply = .failure ⟨FunctionsErrorDomain⟩ :=
      hfail (op, reply) (by rw [hlog]; exact List.mem_singleton_self _)
    rw [hcalled, hreply] at hperm
    exact hperm
  · intro hperm
    refine ⟨⟨[], _, [(op, .failure ⟨FunctionsErrorDomain⟩)]⟩,
      .single (Method.Answers.answer
        (m := NetworkService.callable op text) [] [] op
        (.failure ⟨FunctionsErrorDomain⟩) [.message text] []), rfl, ?_, hperm⟩
    intro e he
    rw [List.mem_singleton.mp he]

/-- Where a failure changes nothing, it is the success that counts, before or
after the failure. -/
theorem undone_callable_iff {σ τ : Type} {complete : σ → NetResult → Option σ}
    {shown : σ → τ} {before sent : σ} (h : ∀ s, complete s .failure = some s) :
    (NetworkService.callable op text).Undone complete shown before sent ↔
      ∃ s, complete sent (.success text) = some s ∧ shown s = shown before := by
  have hfirst : completeAll complete
      [.message text, .failure ⟨FunctionsErrorDomain⟩] sent =
        complete sent (.success text) := by
    simp [completeAll, Completion.netResult?, h]
  have hlast : completeAll complete
      [.failure ⟨FunctionsErrorDomain⟩, .message text] sent =
        complete sent (.success text) := by
    simp [completeAll, Completion.netResult?, h]
  constructor
  · intro hundone
    rw [← hfirst]
    exact hundone _ (callable_failsWith.mpr (List.Perm.refl _))
  · intro hs l hl
    rcases List.perm_pair.mp (callable_failsWith.mp hl) with rfl | rfl
    · rwa [hfirst]
    · rwa [hlast]

end Callable

/-! ## An add -/

namespace CategoryScreen

def addCompleted (k : ℕ) (s : CategoryScreen) :
    NetResult → Option CategoryScreen
  | .success _ => s.handle (.added k)
  | .failure => s.handle .addFailed

/-- Both lists are what they were, once an add sent off in this state has
failed. -/
def AddUndone (s : CategoryScreen) (itemID categoryID : String) (count : ℤ)
    (itemIndex : ℕ) : Prop :=
  (NetworkService.addItemInBasket itemID categoryID count).Undone
    (addCompleted s.adds.length)
    (fun s => (s.presenter.items, s.presenter.shownItems)) s
    (s.addItemInBasket itemID count itemIndex true)

/-- Nothing is added, and the shown list is that of all items not used up. -/
def NothingToUndo (s : CategoryScreen) (count : ℤ) (itemIndex : ℕ) : Prop :=
  (∀ items ∈ s.presenter.items, itemIndex < items.length ∧ count = 0) ∧
    s.presenter.shownItems =
      s.presenter.items.map (List.filter fun item => 0 < item.count)

section Add

variable {s : CategoryScreen}

theorem shownItems_showItems :
    s.showItems.presenter.shownItems = s.presenter.shownItems := by
  unfold showItems success
  split
  · rfl
  · simp only
    split
    · rfl
    · unfold CategoryPresenter.getManufacturers CategoryPresenter.getCostRange
      split <;> split <;> rfl

theorem lists_addDone (s : CategoryScreen) (add : PendingAdd) :
    (s.addDone add).map (fun s' =>
        (s'.presenter.items, s'.presenter.shownItems)) =
      (s.presenter.lowerCount add.itemIndex add.count).map fun p =>
        (p.items, p.items.map (List.filter fun item => 0 < item.count)) := by
  rw [addDone]
  cases s.presenter.lowerCount add.itemIndex add.count with
  | none => rfl
  | some p =>
      refine congrArg some (Prod.ext items_showItems ?_)
      exact shownItems_showItems

theorem lower_eq_self_iff {item : Item} {c : ℤ} :
    ({ item with count := item.count - c } : Item) = item ↔ c = 0 := by
  constructor
  · intro h
    have hcount : item.count - c = item.count := congrArg Item.count h
    omega
  · rintro rfl
    rw [sub_zero]

/-- Lowering and filtering keep both lists only if there is nothing to take
away, and nothing to filter. -/
theorem lists_lowerCount_iff {p : CategoryPresenter} {k : ℕ} {c : ℤ}
    {shown : Option (List Item)} :
    ((p.lowerCount k c).map fun p =>
        (p.items, p.items.map (List.filter fun item => 0 < item.count))) =
      some (p.items, shown) ↔
    (∀ items ∈ p.items, k < items.length ∧ c = 0) ∧
      shown = p.items.map (List.filter fun item => 0 < item.count) := by
  cases hitems : p.items with
  | none =>
      rw [CategoryPresenter.lowerCount, hitems]
      simp [hitems, eq_comm]
  | some items =>
      rw [CategoryPresenter.lowerCount, hitems]
      simp only [Option.mem_some_iff, forall_eq', Option.map_some]
      split
      · next hlt =>
          have hsame : (items.modify k fun item =>
              { item with count := item.count - c }) = items ↔ c = 0 :=
            (Indexed.modify_eq_self_iff (List.getElem?_eq_getElem hlt)).trans
              lower_eq_self_iff
          simp only [Option.map_some, Option.some.injEq, Prod.mk.injEq]
          constructor
          · rintro ⟨hmodify, hshown⟩
            rw [hmodify] at hshown
            exact ⟨⟨hlt, hsame.mp hmodify⟩, hshown.symm⟩
          · rintro ⟨⟨-, hzero⟩, hshown⟩
            rw [hsame.mpr hzero]
            exact ⟨rfl, hshown.symm⟩
      · next hlt =>
          rw [Option.map_none]
          refine iff_of_false (fun h => ?_) fun h => hlt h.1.1
          cases h

theorem add_undone_iff {itemID categoryID : String} {count : ℤ}
    {itemIndex : ℕ} :
    s.AddUndone itemID categoryID count itemIndex ↔
      s.NothingToUndo count itemIndex := by
  have hblock : addCompleted s.adds.length
      (s.addItemInBasket itemID count itemIndex true)
        (.success "Товар успешно добавлен в корзину!") =
      s.addDone ⟨itemID, itemIndex, count⟩ := by
    rw [addCompleted, handle, addItemInBasket, if_pos rfl]
    simp only [List.getElem?_concat_length, Option.bind_some]
    rw [List.eraseIdx_append_of_length_le (le_refl _), Nat.sub_self,
      List.eraseIdx_zero, List.tail_cons, List.append_nil]
  rw [AddUndone, NetworkService.addItemInBasket,
    undone_callable_iff fun _ => rfl, ← Option.map_eq_some_iff, hblock,
    lists_addDone]
  exact lists_lowerCount_iff

end Add

end CategoryScreen

/-! ## A removal -/

namespace BasketScreen

variable {Date : Type} {formatter : DateFormatter Date} {s : BasketScreen}

def removeCompleted (formatter : DateFormatter Date) (s : BasketScreen) :
    NetResult → Option BasketScreen
  | .success _ => s.handle formatter .removed
  | .failure => s.handle formatter .removeFailed

/-- The items and the total on display are what they were, once the removal of
this item, confirmed in this state, has failed. -/
def RemovalUndone (formatter : DateFormatter Date) (s : BasketScreen)
    (index : ℕ) (item : BasketItem) : Prop :=
  ∃ sent, s.handle formatter (.removeTapped index) = some sent ∧
    (NetworkService.removeFromBasket item.itemID item.dbItemID
      item.categoryID).Undone (removeCompleted formatter)
      (fun s => (s.presenter.currentOrder.map Order.items, s.view.totalLabel))
      s sent

theorem currentOrder_removed {text : String} {s' : BasketScreen}
    (hs : s.removeCompleted formatter (.success text) = some s') :
    s'.presenter.currentOrder = s.presenter.currentOrder := by
  simp only [removeCompleted, handle] at hs
  split at hs
  · cases hs
  · obtain ⟨r, hr, rfl⟩ := Option.map_eq_some_iff.mp hs
    obtain ⟨order, -, rfl⟩ := Option.map_eq_some_iff.mp hr
    rfl

theorem items_removeTapped {order : Order} {index : ℕ} {s' : BasketScreen}
    (ho : s.presenter.currentOrder = some order)
    (hs : s.handle formatter (.removeTapped index) = some s') :
    s'.presenter.currentOrder.map Order.items =
      some (order.items.eraseIdx index) := by
  obtain ⟨r, hr, rfl⟩ := Option.map_eq_some_iff.mp hs
  rw [BasketPresenter.removeFromBasket, ho] at hr
  obtain ⟨item, -, rfl⟩ := Option.map_eq_some_iff.mp hr
  rfl

theorem removal_not_undone {order : Order} {index : ℕ} {item : BasketItem}
    (ho : s.presenter.currentOrder = some order)
    (hitem : order.items[index]? = some item) :
    ¬ s.RemovalUndone formatter index item := by
  rintro ⟨sent, hsent, hundone⟩
  rw [NetworkService.removeFromBasket, undone_callable_iff fun _ => rfl]
    at hundone
  obtain ⟨s', hs', hshown⟩ := hundone
  have hremoved : s'.presenter.currentOrder = sent.presenter.currentOrder :=
    currentOrder_removed hs'
  have hitems : s'.presenter.currentOrder.map Order.items =
      s.presenter.currentOrder.map Order.items := congrArg Prod.fst hshown
  rw [hremoved, items_removeTapped ho hsent, ho, Option.map_some,
    Option.some.injEq] at hitems
  have hlt := (List.getElem?_eq_some_iff.mp hitem).1
  have hlength := congrArg List.length hitems
  rw [List.length_eraseIdx_of_lt hlt] at hlength
  omega

end BasketScreen

/-- An add that fails leaves both lists as they were exactly if there was
nothing to undo, whatever the state it was sent off in. A removal that fails
never leaves the order as it was. -/
theorem failed_calls_undone_iff (s : CategoryScreen)
    (itemID categoryID : String) (count : ℤ) (itemIndex : ℕ) {Date : Type}
    (formatter : DateFormatter Date) (basket : BasketScreen) {order : Order}
    (index : ℕ) {item : BasketItem}
    (ho : basket.presenter.currentOrder = some order)
    (hitem : order.items[index]? = some item) :
    (s.AddUndone itemID categoryID count itemIndex ↔
      s.NothingToUndo count itemIndex) ∧
    ¬ basket.RemovalUndone formatter index item :=
  ⟨CategoryScreen.add_undone_iff, BasketScreen.removal_not_undone ho hitem⟩

/-- An add of nothing, and a basket with one line. -/
theorem failed_calls_undone_camera :
    (CategoryScreen.start.snapshot [CategoryScreen.shopTripod]).AddUndone
      "tri" "photo" 0 0 ∧
    ¬ BasketScreen.RemovalUndone BasketScreen.plainDates
      { BasketScreen.start with
        presenter := ⟨true, some ⟨"", "", 2, "", [cameraItem]⟩⟩ }
      0 cameraItem := by
  have hboth := failed_calls_undone_iff
    (CategoryScreen.start.snapshot [CategoryScreen.shopTripod]) "tri" "photo" 0 0
    BasketScreen.plainDates
    { BasketScreen.start with
      presenter := ⟨true, some ⟨"", "", 2, "", [cameraItem]⟩⟩ } 0 rfl rfl
  exact ⟨hboth.1.mpr ⟨by decide +kernel, by decide +kernel⟩, hboth.2⟩

/-- The only tripod shown is added and the function says no: the shop has one
less on the screen. The same with the only line of a basket: it is gone. -/
theorem failed_calls_undone_fails :
    ¬ (CategoryScreen.start.snapshot [CategoryScreen.shopTripod]).AddUndone
      "tri" "photo" 1 0 ∧
    ¬ BasketScreen.RemovalUndone BasketScreen.plainDates
      { BasketScreen.start with
        presenter := ⟨false, some ⟨"", "", 1, "", [cameraItem]⟩⟩ }
      0 cameraItem := by
  constructor
  · rw [CategoryScreen.add_undone_iff]
    rintro ⟨hzero, -⟩
    have hone := hzero [CategoryScreen.shopTripod] (by decide +kernel)
    exact absurd hone.2 (by decide)
  · exact BasketScreen.removal_not_undone rfl rfl

end PhoRent
