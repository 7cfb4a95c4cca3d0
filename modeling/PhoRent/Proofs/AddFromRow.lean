import PhoRent.App.CategoryPresenter
import PhoRent.Lib.Indexed

/-!
# Adding from a row

The number of a row is a position in the list that is shown. The block of an
accepted add takes it for a position in `items`, as that is by then. The two
lists differ as soon as a filter or an item that has run out hides something,
and a snapshot may have replaced `items` in the meantime.

So the block lowers the right count exactly if the position still has the item
the row had, or there is nothing to lower. Otherwise it lowers the count of
another item, or runs out of the list.
-/

namespace PhoRent

open Machine

def lowered (x : String) (c : ℤ) (items : List Item) : List Item :=
  Indexed.update Item.ID x
    (fun item => { item with count := item.count - c }) items

/-- The position has the item, or another one and nothing is to be taken. -/
def PointsTo (items : Option (List Item)) (k : ℕ) (x : String) (c : ℤ) :
    Prop :=
  ∃ item ∈ items.bind fun items => items[k]?, item.ID = x ∨ c = 0

/-- Lowering at a position is lowering the item with the ID exactly if it is
there, or nothing is taken. -/
theorem modify_eq_lowered_iff {items : List Item} {x : String} {k : ℕ} {c : ℤ}
    (hids : (items.map Item.ID).Nodup) {item : Item}
    (hk : items[k]? = some item) :
    (items.modify k fun item => { item with count := item.count - c }) =
      lowered x c items ↔ item.ID = x ∨ c = 0 := by
  have hfix : ∀ item : Item,
      ({ item with count := item.count - c } : Item) = item ↔ c = 0 := by
    intro item
    constructor
    · intro h
      have hcount : item.count - c = item.count := congrArg Item.count h
      omega
    · rintro rfl
      rw [sub_zero]
  rw [lowered, Indexed.modify_eq_update_iff hids
    (fun h b => (hfix b).mpr ((hfix item).mp h)) hk, hfix]

/-! ## The screen -/

namespace CategoryScreen

/-- The block of the add at `k` runs without a trap, lowers the count of the
item with this ID, if it is there, and leaves all others alone. -/
def Lowers (s : CategoryScreen) (k : ℕ) (x : String) (c : ℤ) : Prop :=
  ∃ s', s.handle (.added k) = some s' ∧
    s'.presenter.items = s.presenter.items.map (lowered x c)

/-- The documents of a snapshot have distinct IDs. -/
def Possible (_ : CategoryScreen) : CategoryEvent → Prop
  | .snapshot items => (items.map Item.ID).Nodup
  | _ => True

section Items

variable {s s' : CategoryScreen}

@[simp] theorem items_getCostRange (p : CategoryPresenter) :
    p.getCostRange.items = p.items := by
  unfold CategoryPresenter.getCostRange
  split <;> rfl

@[simp] theorem items_getManufacturers (p : CategoryPresenter) :
    p.getManufacturers.items = p.items := by
  unfold CategoryPresenter.getManufacturers
  split <;> rfl

@[simp] theorem items_showItems :
    s.showItems.presenter.items = s.presenter.items := by
  unfold showItems success
  split
  · rfl
  · simp only
    split
    · rfl
    · rw [items_getCostRange, items_getManufacturers]

@[simp] theorem adds_showItems : s.showItems.adds = s.adds := by
  unfold showItems success
  split <;> rfl

@[simp] theorem shown_showItems :
    s.showItems.view.items = s.presenter.shownItems := by
  unfold showItems success
  split <;> rfl

theorem items_addDone (add : PendingAdd) :
    (s.addDone add).map (fun s' => s'.presenter.items) =
      (s.presenter.lowerCount add.itemIndex add.count).map
        CategoryPresenter.items := by
  rw [addDone]
  cases s.presenter.lowerCount add.itemIndex add.count with
  | none => rfl
  | some p => exact congrArg some items_showItems

theorem lowerCount_items {k : ℕ} {c : ℤ} {items : List Item}
    {p : CategoryPresenter} (h : p.items = some items) :
    (p.lowerCount k c).map CategoryPresenter.items =
      if k < items.length then
        some (some (items.modify k fun item =>
          { item with count := item.count - c }))
      else none := by
  rw [CategoryPresenter.lowerCount, h]
  simp only
  split <;> rfl

theorem ids_lowerCount {k : ℕ} {c : ℤ} {p p' : CategoryPresenter}
    (h : p.lowerCount k c = some p') :
    p'.items.map (List.map Item.ID) = p.items.map (List.map Item.ID) := by
  cases hitems : p.items with
  | none =>
      rw [CategoryPresenter.lowerCount, hitems] at h
      rw [← Option.some.inj h, hitems]
  | some items =>
      have hmap := lowerCount_items (k := k) (c := c) hitems
      rw [h] at hmap
      split at hmap
      · rw [Option.some.inj hmap]
        exact congrArg some (Indexed.map_modify fun _ _ => rfl)
      · cases hmap

end Items

/-! ## Every reachable state -/

/-- The IDs of `items` are distinct, and without `items` no row is shown. -/
structure Sound (s : CategoryScreen) : Prop where
  ids : ∀ items ∈ s.presenter.items, (items.map Item.ID).Nodup
  rows : s.presenter.items = none → s.view.items.getD [] = []

section Steps

variable {s s' : CategoryScreen}

theorem sound_start : start.Sound :=
  ⟨fun _ h => (Option.some_ne_none _ h.symm).elim, fun _ => rfl⟩

theorem Sound.of_same (h : s.Sound) (hi : s'.presenter.items = s.presenter.items)
    (hv : s'.view.items = s.view.items) : s'.Sound :=
  ⟨by rw [hi]; exact h.ids, by rw [hi, hv]; exact h.rows⟩

theorem sound_showItems
    (hids : ∀ items ∈ s.presenter.items, (items.map Item.ID).Nodup)
    (hrows : s.presenter.items = none → s.presenter.shownItems.getD [] = []) :
    s.showItems.Sound := by
  constructor
  · rw [items_showItems]
    exact hids
  · rw [items_showItems, shown_showItems]
    exact hrows

theorem sound_closeFilters (h : s.Sound) (hs : s.closeFilters = some s') :
    s'.Sound := by
  obtain ⟨p, hp, hs⟩ := Option.bind_eq_some_iff.mp hs
  obtain ⟨shown, hshown, hp⟩ := Option.bind_eq_some_iff.mp hp
  obtain rfl := Option.some.inj hp
  obtain rfl := Option.some.inj hs
  refine sound_showItems h.ids fun hnone => ?_
  change s.presenter.items = none at hnone
  rw [hnone] at hshown
  obtain rfl := Option.some.inj hshown
  rfl

theorem sound_addDone {add : PendingAdd} (h : s.Sound)
    (hs : s.addDone add = some s') : s'.Sound := by
  obtain ⟨p, hp, hs⟩ := Option.bind_eq_some_iff.mp hs
  obtain rfl := Option.some.inj hs
  refine sound_showItems (fun items' hitems' => ?_) fun hnone => ?_
  · have hids := ids_lowerCount hp
    rw [Option.mem_def.mp hitems', Option.map_some, eq_comm,
      Option.map_eq_some_iff] at hids
    obtain ⟨items, hitems, hids⟩ := hids
    rw [← hids]
    exact h.ids items hitems
  · change p.items = none at hnone
    change (p.items.map _).getD [] = []
    rw [hnone]
    rfl

theorem sound_handle {e : CategoryEvent} (h : s.Sound) (hok : s.Possible e)
    (hs : s.handle e = some s') : s'.Sound := by
  cases e with
  | snapshot items =>
      obtain rfl := Option.some.inj hs
      exact sound_showItems (fun _ h => Option.some.inj h ▸ hok) nofun
  | snapshotFailed | addFailed =>
      obtain rfl := Option.some.inj hs
      exact h.of_same rfl rfl
  | manufacturerAppended name | manufacturerRedused name =>
      obtain rfl := Option.some.inj hs
      exact h.of_same rfl rfl
  | filtersClosed minCost maxCost =>
      exact sound_closeFilters (s := { s with
        presenter := s.presenter.setCostRange minCost maxCost })
        (h.of_same rfl rfl) hs
  | addTapped k count isConnectedToNetwork =>
      obtain ⟨item, -, rfl⟩ := Option.map_eq_some_iff.mp hs
      rw [addItemInBasket]
      split
      · exact h.of_same rfl rfl
      · exact h.of_same rfl rfl
  | added k =>
      obtain ⟨add, -, hs⟩ := Option.bind_eq_some_iff.mp hs
      exact sound_addDone (s := { s with adds := s.adds.eraseIdx k })
        (h.of_same rfl rfl) hs

end Steps

theorem sound_of_run {s : CategoryScreen} (h : Run handle Possible start s) :
    s.Sound :=
  h.invariant (fun _ _ _ => sound_handle) sound_start

/-! ## The block of an add -/

section Rows

variable {s : CategoryScreen}

theorem items_snapshots (snapshots : List (List Item)) (s : CategoryScreen) :
    (snapshots.foldl snapshot s).presenter.items =
      snapshots.getLast?.or s.presenter.items := by
  induction snapshots generalizing s with
  | nil => rfl
  | cons items rest ih =>
      rw [List.foldl_cons, ih, snapshot, items_showItems, List.getLast?_cons]
      cases rest.getLast? <;> rfl

theorem adds_snapshots (snapshots : List (List Item)) (s : CategoryScreen) :
    (snapshots.foldl snapshot s).adds = s.adds := by
  induction snapshots generalizing s with
  | nil => rfl
  | cons items rest ih => rw [List.foldl_cons, ih, snapshot, adds_showItems]

theorem lowers_iff {k : ℕ} {x : String} {add : PendingAdd} {items : List Item}
    (hadd : s.adds[k]? = some add) (hitems : s.presenter.items = some items)
    (hids : (items.map Item.ID).Nodup) :
    s.Lowers k x add.count ↔
      PointsTo (some items) add.itemIndex x add.count := by
  have hblock : s.handle (.added k) =
      { s with adds := s.adds.eraseIdx k }.addDone add := by
    rw [handle, hadd, Option.bind_some]
  have hdone := items_addDone (s := { s with adds := s.adds.eraseIdx k }) add
  rw [lowerCount_items hitems, ← hblock] at hdone
  rw [Lowers, ← Option.map_eq_some_iff, hdone, PointsTo, Option.bind_some]
  split
  · next hlt =>
      obtain ⟨item, hitem⟩ : ∃ item, items[add.itemIndex]? = some item :=
        ⟨_, List.getElem?_eq_getElem hlt⟩
      rw [hitems, Option.map_some, Option.some.injEq, Option.some.injEq,
        modify_eq_lowered_iff hids hitem, hitem]
      simp
  · next hlt =>
      rw [List.getElem?_eq_none (Nat.not_lt.mp hlt)]
      simp

end Rows

/-- In every state a run reaches, the block of an add from a row lowers the
count of the row's item and of no other, and stays in range, exactly if at the
time the row's number is a position of this item in `items`, or of any item if
nothing is to be taken. -/
theorem add_lowers_iff {s : CategoryScreen} (h : Run handle Possible start s)
    {k : ℕ} {item : Item} (hrow : s.row k = some item) (c : ℤ)
    (snapshots : List (List Item))
    (hsnapshots : ∀ items ∈ snapshots, (items.map Item.ID).Nodup) :
    (snapshots.foldl snapshot
        (s.addItemInBasket item.ID c k true)).Lowers s.adds.length item.ID c ↔
      PointsTo (snapshots.getLast?.or s.presenter.items) k item.ID c := by
  have hsound := sound_of_run h
  have hsome : s.presenter.items ≠ none := by
    intro hnone
    obtain ⟨rows, hrows, hk⟩ := Option.bind_eq_some_iff.mp hrow
    have hempty := hsound.rows hnone
    rw [hrows, Option.getD_some] at hempty
    rw [hempty] at hk
    cases hk
  obtain ⟨items₀, hitems₀⟩ := Option.ne_none_iff_exists'.mp hsome
  obtain ⟨items, hitems, hids⟩ : ∃ items,
      snapshots.getLast?.or s.presenter.items = some items ∧
        (items.map Item.ID).Nodup := by
    cases hlast : snapshots.getLast? with
    | none =>
        exact ⟨items₀, by rw [hitems₀, Option.none_or],
          hsound.ids items₀ hitems₀⟩
    | some items =>
        exact ⟨items, rfl, hsnapshots items (List.mem_of_getLast? hlast)⟩
  let add : PendingAdd := ⟨item.ID, k, c⟩
  have hadd : (snapshots.foldl snapshot
      (s.addItemInBasket item.ID c k true)).adds[s.adds.length]? = some add := by
    rw [adds_snapshots, addItemInBasket, if_pos rfl]
    exact List.getElem?_concat_length
  rw [hitems]
  refine lowers_iff hadd ?_ hids
  rw [items_snapshots, ← hitems, addItemInBasket, if_pos rfl]

instance (s : CategoryScreen) : DecidablePred s.Possible
  | .snapshot items => inferInstanceAs (Decidable (items.map Item.ID).Nodup)
  | .snapshotFailed | .manufacturerAppended _ | .manufacturerRedused _
  | .filtersClosed _ _ | .addTapped _ _ _ | .added _ | .addFailed =>
      .isTrue trivial

def shopCamera : Item := ⟨"Camera", 500, "Canon", "", 1, "cam"⟩

def shopTripod : Item := ⟨"Tripod", 100, "Manfrotto", "", 5, "tri"⟩

/-- The tripod's row while both are shown, with a snapshot before the block. -/
theorem add_lowers_tripod :
    ∃ s, Run handle Possible start s ∧ s.row 1 = some shopTripod ∧
      ([[shopCamera, { shopTripod with count := 4 }]].foldl snapshot
        (s.addItemInBasket "tri" 2 1 true)).Lowers s.adds.length "tri" 2 := by
  obtain ⟨s, hrun, hrow⟩ : ∃ s, Run handle Possible start s ∧
      s.row 1 = some shopTripod :=
    exists_run_of_play [.snapshot [shopCamera, shopTripod]] (by decide +kernel)
  refine ⟨s, hrun, hrow, (add_lowers_iff hrun hrow 2
    [[shopCamera, { shopTripod with count := 4 }]] (by decide)).mpr ?_⟩
  exact ⟨{ shopTripod with count := 4 }, rfl, Or.inl rfl⟩

/-- The last camera has been added and its row is gone. An add from the first
row, the tripod's by now, lowers the camera. If a snapshot has left only one
item, an add from the second row runs out of the list. -/
theorem add_lowers_fails :
    (∃ s, Run handle Possible start s ∧ s.row 0 = some shopTripod ∧
      ¬ (s.addItemInBasket "tri" 1 0 true).Lowers s.adds.length "tri" 1) ∧
    ∃ s, Run handle Possible start s ∧ s.row 1 = some shopTripod ∧
      ([[shopTripod]].foldl snapshot
        (s.addItemInBasket "tri" 1 1 true)).handle (.added s.adds.length) =
          none := by
  constructor
  · obtain ⟨s, hrun, hrow, hitems, hdone⟩ :
        ∃ s, Run handle Possible start s ∧ s.row 0 = some shopTripod ∧
        (s.addItemInBasket "tri" 1 0 true).presenter.items =
          some [{ shopCamera with count := 0 }, shopTripod] ∧
        ((s.addItemInBasket "tri" 1 0 true).handle
            (.added s.adds.length)).map (fun s' => s'.presenter.items) =
          some (some [{ shopCamera with count := -1 }, shopTripod]) :=
      exists_run_of_play
        [.snapshot [shopCamera, shopTripod], .addTapped 0 1 true, .added 0]
        (by decide +kernel)
    refine ⟨s, hrun, hrow, ?_⟩
    rintro ⟨s', hs', hlowered⟩
    rw [hs', Option.map_some, hlowered, hitems] at hdone
    exact absurd hdone (by decide)
  · obtain ⟨s, hrun, hrow, hnone⟩ : ∃ s, Run handle Possible start s ∧
        s.row 1 = some shopTripod ∧
        ([[shopTripod]].foldl snapshot
          (s.addItemInBasket "tri" 1 1 true)).handle (.added s.adds.length) =
            none :=
      exists_run_of_play [.snapshot [shopCamera, shopTripod]]
        (by decide +kernel)
    exact ⟨s, hrun, hrow, hnone⟩

end CategoryScreen

end PhoRent
