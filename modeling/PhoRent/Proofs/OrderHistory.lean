import PhoRent.App.OrdersPresenter

/-!
# Late answers in the list of orders

A completion of `fillPreviousItem` only knows two indices. They were right
when it was sent, and every snapshot since may have moved its line or taken it
away. Likewise the table goes by the number of sections it was told, and the
orders may have become fewer since.

As long as every snapshot has, at the places of the answers still to come, the
lines these were asked for, and the table does not ask for a header while
there are fewer orders than it was told, every answer finds its line and no
index is out of range.
-/

namespace PhoRent

open Machine OrdersScreen

/-- The line at the place of the request is the one it was made for. -/
def FillRequest.Fits (r : FillRequest) (orders : List Order) : Prop :=
  ∃ item ∈ lineAt orders r.indexOrder r.indexItem,
    item.categoryID = r.categoryID ∧ item.dbItemID = r.itemID

instance (r : FillRequest) : DecidablePred r.Fits :=
  fun orders => inferInstanceAs (Decidable
    (∃ item ∈ lineAt orders r.indexOrder r.indexItem, _))

/-- Lines with other ids than the request's are the same afterwards. -/
def FillRequest.OnlyOwn (r : FillRequest) (orders orders' : List Order) :
    Prop :=
  ∀ i j item, lineAt orders i j = some item →
    ¬ (item.categoryID = r.categoryID ∧ item.dbItemID = r.itemID) →
    lineAt orders' i j = some item

namespace OrdersScreen

/-! ## Lines and places -/

section Lines

variable {orders : List Order}

theorem lineAt_write (orders : List Order) (i j i' j' : ℕ)
    (data : PreviousItem) : lineAt (write orders i j data) i' j' =
      (lineAt orders i' j').map fun item =>
        if i' = i ∧ j' = j then item.fill data else item := by
  rw [lineAt, write, List.getElem?_modify, Option.map_eq_map, lineAt]
  cases ho : orders[i']? with
  | none => rfl
  | some order =>
      simp only [Option.map_some, Option.bind_some]
      by_cases hi : i = i'
      · subst hi
        rw [if_pos rfl, List.getElem?_modify, Option.map_eq_map]
        cases order.items[j']? with
        | none => rfl
        | some item =>
            by_cases hj : j = j'
            · simp [hj]
            · simp [hj, Ne.symm hj]
      · simp [hi, Ne.symm hi]

theorem fits_write {r : FillRequest} (h : r.Fits orders) (i j : ℕ)
    (data : PreviousItem) : r.Fits (write orders i j data) := by
  obtain ⟨item, hline, hids⟩ := h
  rw [FillRequest.Fits, lineAt_write]
  refine ⟨_, Option.mem_map_of_mem _ hline, ?_⟩
  split
  · exact hids
  · exact hids

theorem fits_requests {fill : ℕ} {r : FillRequest}
    (h : r ∈ requests fill orders) : r.Fits orders := by
  rw [requests, List.mem_flatMap] at h
  obtain ⟨⟨order, i⟩, hi, hr⟩ := h
  obtain ⟨⟨item, j⟩, hj, rfl⟩ := List.mem_map.mp hr
  refine ⟨item, ?_, rfl, rfl⟩
  rw [List.mem_zipIdx_iff_getElem?] at hi hj
  rw [Option.mem_def, lineAt, hi, Option.bind_some, hj]

theorem onlyOwn_write {r : FillRequest} (h : r.Fits orders)
    (data : PreviousItem) :
    r.OnlyOwn orders (write orders r.indexOrder r.indexItem data) := by
  intro i j item hline hids
  rw [lineAt_write, hline, Option.map_some, if_neg]
  intro hij
  obtain ⟨rfl, rfl⟩ := hij
  obtain ⟨item', hline', hids'⟩ := h
  obtain rfl : item = item' := Option.some.inj (hline.symm.trans hline')
  exact hids hids'

end Lines

/-! ## Events -/

/-- What can happen: requests in flight are answered, blocks queued are run,
and the table asks about what it was told. -/
def Possible (s : OrdersScreen) : OrdersEvent → Prop
  | .snapshot _ | .snapshotFailed => True
  | .filled k _ => k < s.inFlight.length
  | .block => 0 < s.blocks
  | .headerAsked sectionIndex | .footerAsked sectionIndex =>
      sectionIndex < s.told.length
  | .cellAsked sectionIndex row => ∃ rows ∈ s.told[sectionIndex]?, row < rows

/-- A snapshot has at the places of the answers to come the lines they are
for, and the table asks about sections while the orders are as many as it was
told, or more. -/
def Undisturbed (s : OrdersScreen) : OrdersEvent → Prop
  | .snapshot orders => ∀ r ∈ s.inFlight, r.Fits orders
  | .headerAsked _ | .footerAsked _ => s.told.length ≤ s.orders.length
  | _ => True

/-- The event does not trap, and a completion writes only into a line with the
ids it was asked for. -/
def Handled (s : OrdersScreen) (e : OrdersEvent) : Prop :=
  s.handle e ≠ none ∧ ∀ k result r s', e = .filled k result →
    s.inFlight[k]? = some r → s.handle e = some s' →
    r.OnlyOwn s.orders s'.orders

def Fitting (s : OrdersScreen) : Prop := ∀ r ∈ s.inFlight, r.Fits s.orders

section Steps

variable {s s' : OrdersScreen}

theorem fitting_fillItems (h : s.Fitting) : s.fillItems.Fitting := by
  intro r hr
  rcases List.mem_append.mp hr with hr | hr
  · exact h r hr
  · exact fits_requests hr

theorem fitting_snapshot {orders : List Order}
    (hok : s.Undisturbed (.snapshot orders)) :
    (s.snapshot orders).Fitting := by
  refine fitting_fillItems ?_
  split <;> exact hok

theorem filled_eq_some {r : FillRequest} {result : FillResult}
    (h : s.filled r result = some s') : s'.inFlight = s.inFlight ∧
      (s'.orders = s.orders ∨ ∃ data,
        s'.orders = write s.orders r.indexOrder r.indexItem data) := by
  cases result with
  | failure =>
      obtain rfl := Option.some.inj h
      exact ⟨rfl, Or.inl rfl⟩
  | success data =>
      obtain ⟨item, -, rfl⟩ := Option.map_eq_some_iff.mp h
      exact ⟨rfl, Or.inr ⟨data, rfl⟩⟩

theorem Fitting.handle {e : OrdersEvent} (h : s.Fitting)
    (hok : s.Undisturbed e) (hs : s.handle e = some s') : s'.Fitting := by
  cases e with
  | snapshot orders =>
      obtain rfl := Option.some.inj hs
      exact fitting_snapshot hok
  | filled k result =>
      obtain ⟨r, hr, hf⟩ := Option.bind_eq_some_iff.mp hs
      obtain ⟨hflight, horders⟩ := filled_eq_some hf
      intro r' hr'
      rw [hflight] at hr'
      have hfits := h r' (List.mem_of_mem_eraseIdx hr')
      rcases horders with horders | ⟨data, horders⟩ <;> rw [horders]
      · exact hfits
      · exact fits_write hfits _ _ data
  | block =>
      simp only [OrdersScreen.handle] at hs
      split at hs
      · cases hs
      · obtain rfl := Option.some.inj hs
        exact h
  | headerAsked sectionIndex | footerAsked sectionIndex =>
      obtain ⟨_, -, rfl⟩ := Option.map_eq_some_iff.mp hs
      exact h
  | snapshotFailed | cellAsked =>
      obtain rfl := Option.some.inj hs
      exact h

/-- Where every answer has its line, nothing that can happen goes wrong. -/
theorem Fitting.handled {e : OrdersEvent} (h : s.Fitting)
    (hp : s.Possible e) (hok : s.Undisturbed e) : s.Handled e := by
  have hsection : ∀ {α : Type} (f : Order → α) (i : ℕ), i < s.orders.length →
      (s.orders[i]?.map f).map (fun _ => s) ≠ none := by
    intro α f i hi
    simp [hi]
  cases e with
  | filled k result =>
      obtain ⟨r, hr⟩ : ∃ r, s.inFlight[k]? = some r :=
        ⟨_, List.getElem?_eq_getElem hp⟩
      have hfits := h r (List.mem_of_getElem? hr)
      refine ⟨?_, fun k' result' r' s' he hr' hs => ?_⟩
      · obtain ⟨item, hline, -⟩ := hfits
        simp only [OrdersScreen.handle, hr, Option.bind_some]
        cases result with
        | failure => simp [filled]
        | success data => simp [filled, Option.mem_def.mp hline]
      · obtain ⟨rfl, rfl⟩ := OrdersEvent.filled.inj he
        obtain rfl := Option.some.inj (hr.symm.trans hr')
        simp only [OrdersScreen.handle, hr, Option.bind_some] at hs
        obtain ⟨-, horders | ⟨data, horders⟩⟩ := filled_eq_some hs
        · intro i j item hline _
          rw [horders]
          exact hline
        · rw [horders]
          exact onlyOwn_write hfits data
  | block =>
      refine ⟨?_, nofun⟩
      have hpos : s.blocks ≠ 0 := Nat.pos_iff_ne_zero.mp hp
      simp only [OrdersScreen.handle, if_neg hpos]
      exact Option.some_ne_none _
  | headerAsked i =>
      exact ⟨hsection _ i (lt_of_lt_of_le hp hok), nofun⟩
  | footerAsked i =>
      exact ⟨hsection _ i (lt_of_lt_of_le hp hok), nofun⟩
  | snapshot | snapshotFailed | cellAsked =>
      exact ⟨Option.some_ne_none _, nofun⟩

end Steps

/-- Along every run of events that leave the places alone, whatever can happen
next and does too is handled well. -/
theorem handled_of_run {s : OrdersScreen}
    (hrun : Run OrdersScreen.handle
      (fun s e => s.Possible e ∧ s.Undisturbed e) start s)
    {e : OrdersEvent} (hp : s.Possible e) (hok : s.Undisturbed e) :
    s.Handled e := by
  have hfitting : s.Fitting := by
    refine hrun.invariant (fun s e s' h hok hs => h.handle hok.2 hs) ?_
    intro r hr
    cases hr
  exact hfitting.handled hp hok

instance (s : OrdersScreen) : DecidablePred s.Possible
  | .snapshot _ | .snapshotFailed => .isTrue trivial
  | .filled k _ => inferInstanceAs (Decidable (k < s.inFlight.length))
  | .block => inferInstanceAs (Decidable (0 < s.blocks))
  | .headerAsked i => inferInstanceAs (Decidable (i < s.told.length))
  | .footerAsked i => inferInstanceAs (Decidable (i < s.told.length))
  | .cellAsked i row =>
      inferInstanceAs (Decidable (∃ rows ∈ s.told[i]?, row < rows))

instance (s : OrdersScreen) : DecidablePred s.Undisturbed
  | .snapshot orders =>
      inferInstanceAs (Decidable (∀ r ∈ s.inFlight, r.Fits orders))
  | .headerAsked _ | .footerAsked _ =>
      inferInstanceAs (Decidable (s.told.length ≤ s.orders.length))
  | .snapshotFailed | .filled _ _ | .block | .cellAsked _ _ => .isTrue trivial

def pastOrder (date dbItemID : String) : Order :=
  ⟨"", date, 1, "В работе", [⟨"", "", 1000, "", "", 1, "photo", dbItemID⟩]⟩

def catalogCamera : PreviousItem := ⟨"Camera", 500, "", ""⟩

/-- A second order comes in before the first has been filled; the table is set
twice, and asks for the header of the second. -/
theorem handled_of_run_camera :
    ∃ s, Run OrdersScreen.handle (fun s e => s.Possible e ∧ s.Undisturbed e)
        start s ∧ s.told = [1, 1] ∧ s.Handled (.headerAsked 1) := by
  obtain ⟨s, hrun, htold, horders⟩ : ∃ s, Run OrdersScreen.handle
      (fun s e => s.Possible e ∧ s.Undisturbed e) start s ∧
      s.told = [1, 1] ∧ s.orders.length = 2 :=
    exists_run_of_play
      [.snapshot [pastOrder "01.06.2020" "cam"],
        .snapshot [pastOrder "01.06.2020" "cam",
          pastOrder "05.06.2020" "tri"],
        .filled 1 (.success catalogCamera), .filled 0 (.success catalogCamera),
        .block, .filled 0 (.success ⟨"Tripod", 100, "", ""⟩), .block]
      (by decide +kernel)
  refine ⟨s, hrun, htold, handled_of_run hrun ?_ ?_⟩
  · simp [Possible, htold]
  · simp [Undisturbed, htold, horders]

/-- An order is gone before its line has been filled, and the completion
traps. An order takes the place of another, and is given the other's camera.
The table has been told of two orders, there is only one left, and it asks for
the header of the second. -/
theorem handled_fails :
    (∃ s, Run OrdersScreen.handle Possible start s ∧
      s.handle (.filled 0 (.success catalogCamera)) = none ∧
      s.Possible (.filled 0 (.success catalogCamera)) ∧
      ¬ s.Handled (.filled 0 (.success catalogCamera))) ∧
    (∃ s, Run OrdersScreen.handle Possible start s ∧
      s.Possible (.filled 0 (.success catalogCamera)) ∧
      ¬ s.Handled (.filled 0 (.success catalogCamera))) ∧
    ∃ s, Run OrdersScreen.handle Possible start s ∧
      s.Possible (.headerAsked 1) ∧ ¬ s.Handled (.headerAsked 1) := by
  refine ⟨?_, ?_, ?_⟩
  · obtain ⟨s, hrun, hnone, hp⟩ : ∃ s, Run OrdersScreen.handle Possible start s ∧
        s.handle (.filled 0 (.success catalogCamera)) = none ∧
        s.Possible (.filled 0 (.success catalogCamera)) :=
      exists_run_of_play
        [.snapshot [pastOrder "01.06.2020" "cam"], .snapshot []]
        (by decide +kernel)
    exact ⟨s, hrun, hnone, hp, fun h => h.1 hnone⟩
  · let tripod : BasketItem := ⟨"", "", 1000, "", "", 1, "photo", "tri"⟩
    obtain ⟨s, hrun, hflight, hline, hfilled⟩ :
        ∃ s, Run OrdersScreen.handle Possible start s ∧
        s.inFlight = [⟨0, 0, 0, "photo", "cam"⟩, ⟨1, 0, 0, "photo", "tri"⟩] ∧
        lineAt s.orders 0 0 = some tripod ∧
        ((s.handle (.filled 0 (.success catalogCamera))).map fun s' =>
          lineAt s'.orders 0 0) = some (some (tripod.fill catalogCamera)) :=
      exists_run_of_play
        [.snapshot [pastOrder "01.06.2020" "cam"],
          .snapshot [pastOrder "05.06.2020" "tri"]]
        (by decide +kernel)
    refine ⟨s, hrun, by simp [Possible, hflight], fun h => ?_⟩
    obtain ⟨s', hs', hline'⟩ := Option.map_eq_some_iff.mp hfilled
    have hown := h.2 0 _ ⟨0, 0, 0, "photo", "cam"⟩ s' rfl (by simp [hflight])
      hs' 0 0 tripod hline (by decide)
    rw [hline'] at hown
    exact absurd hown (by decide)
  · obtain ⟨s, hrun, hp, hnone⟩ : ∃ s, Run OrdersScreen.handle Possible start s ∧
        s.Possible (.headerAsked 1) ∧ s.handle (.headerAsked 1) = none :=
      exists_run_of_play
        [.snapshot [pastOrder "01.06.2020" "cam",
            pastOrder "05.06.2020" "tri"],
          .filled 0 (.success catalogCamera),
          .filled 0 (.success ⟨"Tripod", 100, "", ""⟩), .block,
          .snapshot [pastOrder "05.06.2020" "tri"]]
        (by decide +kernel)
    exact ⟨s, hrun, hp, fun h => h.1 hnone⟩

end OrdersScreen

end PhoRent
