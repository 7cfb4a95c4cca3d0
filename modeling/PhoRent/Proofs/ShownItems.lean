import PhoRent.Proofs.FiltersPopover

/-!
# What the filter should show

Three handlers make the shown list, each in its own way: a snapshot shows all
of its items, an add those not used up, closing the filters those the filter
admits. The list that should be shown is the part of `items` that is not used
up and admitted, whatever came last.

The handlers agree on it as long as a snapshot has nothing to hide, what an
add leaves is all admitted, and nothing the filter admits has been used up.
-/

namespace PhoRent

open Machine

/-- A second condition takes nothing away exactly if it follows. -/
theorem filter_and_eq_iff {α : Type*} {P Q : α → Prop} [DecidablePred P]
    [DecidablePred Q] {l : List α} :
    (l.filter fun a => decide (P a ∧ Q a)) = l.filter (fun a => decide (P a)) ↔
      ∀ a ∈ l, P a → Q a := by
  have htwice : (l.filter fun a => decide (P a ∧ Q a)) =
      (l.filter fun a => decide (P a)).filter fun a => decide (Q a) := by
    rw [List.filter_filter]
    refine List.filter_congr fun a _ => ?_
    rw [Bool.decide_and, Bool.and_comm]
  rw [htwice, List.filter_eq_self]
  simp only [List.mem_filter, decide_eq_true_eq, and_imp]

theorem filter_and_eq_right_iff {α : Type*} {P Q : α → Prop} [DecidablePred P]
    [DecidablePred Q] {l : List α} :
    (l.filter fun a => decide (P a ∧ Q a)) = l.filter (fun a => decide (Q a)) ↔
      ∀ a ∈ l, Q a → P a := by
  rw [← filter_and_eq_iff]
  simp only [and_comm]

/-- The items not used up that the filter admits, in their order. -/
def CategoryPresenter.wanted (self : CategoryPresenter) : List Item :=
  (self.items.getD []).filter fun item =>
    decide (0 < item.count ∧ self.Admits item)

namespace FilteredScreen

variable {slider : Slider} {s s' : FilteredScreen}

/-- What is shown is what should be, for the presenter and for the view. -/
def Filtered (s : FilteredScreen) : Prop :=
  s.category.presenter.shownItems = some s.category.presenter.wanted ∧
    s.category.view.items = s.category.presenter.shownItems

instance (s : FilteredScreen) : Decidable s.Filtered :=
  inferInstanceAs (Decidable (_ ∧ _))

/-- While the popover is closed, a snapshot has only items in stock, after the
first only such as the filter admits, and an add leaves no others in stock. When it
closes, every item the filter will admit is in stock. -/
def Consistent (s : FilteredScreen) : FiltersEvent → Prop
  | .category (.snapshot items) => s.filters = none → ∀ item ∈ items,
      0 < item.count ∧ (s.category.view.updated = true →
        s.category.presenter.Admits item)
  | .category (.added k) => s.filters = none →
      ∀ add ∈ s.category.adds[k]?, ∀ items ∈ s.category.presenter.items,
      ∀ (i : ℕ) (hi : i < items.length),
        0 < items[i].count - (if add.itemIndex = i then add.count else 0) →
          s.category.presenter.Admits items[i]
  | .popoverClosed => ∀ filters ∈ s.filters,
      ∀ items ∈ s.category.presenter.items, ∀ item ∈ items,
        item.manufacturer ∈ s.category.presenter.checkManufacturers →
          filters.selected.minValue ≤ item.cost →
          item.cost ≤ filters.selected.maxValue → 0 < item.count
  | _ => True

/-! ## The three handlers -/

/-- After the first time the view has the presenter's list, and that is left
as it is. -/
theorem filtered_showItems_iff (h : s.category.view.updated = true)
    {p : CategoryPresenter} {adds : List PendingAdd}
    {filters : Option FiltersView} :
    (⟨CategoryScreen.showItems ⟨p, s.category.view, adds⟩, filters⟩ :
      FilteredScreen).Filtered ↔ p.shownItems = some p.wanted := by
  rw [CategoryScreen.showItems_of_updated (s := ⟨p, _, adds⟩) h]
  exact and_iff_left rfl

theorem filtered_snapshot_iff (h : s.category.view.updated = true)
    (items : List Item) :
    ({ s with category := s.category.snapshot items }).Filtered ↔
      ∀ item ∈ items, 0 < item.count ∧ s.category.presenter.Admits item := by
  refine (filtered_showItems_iff h).trans ?_
  rw [Option.some.injEq, eq_comm, CategoryPresenter.wanted,
    Option.getD_some, List.filter_eq_self]
  simp only [decide_eq_true_eq]
  exact Iff.rfl

theorem mem_lowered_iff {items : List Item} {k : ℕ} {c : ℤ} {item : Item} :
    item ∈ items.modify k (fun old =>
        ({ old with count := old.count - c } : Item)) ↔
      ∃ (i : ℕ) (hi : i < items.length), { items[i] with
        count := items[i].count - (if k = i then c else 0) } = item := by
  simp only [List.mem_iff_getElem, List.length_modify, List.getElem_modify]
  refine exists_congr fun i => exists_congr fun hi => ?_
  split
  · rfl
  · rw [sub_zero]

/-- An add shows what it should exactly if the filter admits all it leaves in
stock. -/
theorem filtered_addDone_iff (h : s.category.view.updated = true)
    {items : List Item} (hitems : s.category.presenter.items = some items)
    {add : PendingAdd} {adds : List PendingAdd} {category : CategoryScreen}
    (hs : ({ s.category with adds := adds }).addDone add = some category) :
    ({ s with category := category }).Filtered ↔
      ∀ (i : ℕ) (hi : i < items.length),
        0 < items[i].count - (if add.itemIndex = i then add.count else 0) →
          s.category.presenter.Admits items[i] := by
  obtain ⟨p, hp, hs⟩ := Option.bind_eq_some_iff.mp hs
  obtain rfl := Option.some.inj hs
  change s.category.presenter.lowerCount _ _ = some p at hp
  rw [CategoryPresenter.lowerCount, hitems] at hp
  simp only at hp
  split at hp
  · obtain rfl := Option.some.inj hp
    refine (filtered_showItems_iff h).trans ?_
    rw [Option.map_some, Option.some.injEq, eq_comm, CategoryPresenter.wanted,
      Option.getD_some]
    refine filter_and_eq_iff.trans ?_
    constructor
    · intro h i hi hcount
      have hmem := (mem_lowered_iff (k := add.itemIndex) (c := add.count)).mpr
        ⟨i, hi, rfl⟩
      have hadmits := h _ hmem hcount
      exact hadmits
    · intro h item hitem hcount
      obtain ⟨i, hi, rfl⟩ := mem_lowered_iff.mp hitem
      exact h i hi hcount
  · cases hp

theorem filtered_closed_iff (h : s.category.view.updated = true)
    {items : List Item} (hitems : s.category.presenter.items = some items)
    {filters : FiltersView}
    (hs : s.viewWillDisappear filters = some s') :
    s'.Filtered ↔ ∀ item ∈ items,
      item.manufacturer ∈ s.category.presenter.checkManufacturers →
        filters.selected.minValue ≤ item.cost →
        item.cost ≤ filters.selected.maxValue → 0 < item.count := by
  rw [viewWillDisappear, CategoryScreen.handle, CategoryScreen.closeFilters,
    CategoryPresenter.filterItems_of_range rfl] at hs
  obtain rfl := Option.some.inj hs
  refine (filtered_showItems_iff h).trans ?_
  rw [Option.some.injEq, eq_comm, CategoryPresenter.wanted]
  refine filter_and_eq_right_iff.trans ?_
  simp only [CategoryPresenter.setCostRange, hitems, Option.getD_some,
    CategoryPresenter.Admits, Option.mem_some_iff, exists_eq_left', and_imp]

theorem filtered_first (h : s.category.view.updated = false)
    {items : List Item} (hstock : ∀ item ∈ items, 0 < item.count) :
    (s.category.snapshot items).view.updated = true →
      ({ s with category := s.category.snapshot items }).Filtered := by
  intro hupdated
  rcases CategoryScreen.snapshot_of_fresh h items with
    ⟨-, hs⟩ | ⟨minCost, hmin, maxCost, hmax, hs⟩
  · rw [hs] at hupdated
    exact absurd (h.symm.trans hupdated) Bool.false_ne_true
  · rw [Filtered, hs]
    refine ⟨congrArg some (Eq.symm (List.filter_eq_self.mpr ?_)), rfl⟩
    intro item hitem
    have hcost := List.mem_map_of_mem (f := Item.cost) hitem
    refine decide_eq_true ⟨hstock item hitem, ?_, ⟨_, rfl, ?_⟩, ⟨_, rfl, ?_⟩⟩
    · exact List.mem_toFinset.mpr (List.mem_map_of_mem hitem)
    · exact_mod_cast (List.min?_eq_some_iff.mp hmin).2 _ hcost
    · exact_mod_cast (List.max?_eq_some_iff.mp hmax).2 _ hcost

/-! ## Along a run -/

/-- What the invariant says between the handlers. -/
def ShownWhileClosed (s : FilteredScreen) : Prop :=
  s.category.view.updated = true → s.filters = none → s.Filtered

theorem ShownWhileClosed.of_same (h : s.ShownWhileClosed)
    (hpresenter : s'.category.presenter = s.category.presenter)
    (hitems : s'.category.view.items = s.category.view.items)
    (hupdated : s'.category.view.updated = s.category.view.updated)
    (hfilters : s'.filters = s.filters) : s'.ShownWhileClosed := by
  intro hupdated' hfilters'
  rw [Filtered, hpresenter, hitems]
  exact h (hupdated.symm.trans hupdated') (hfilters.symm.trans hfilters')

theorem ShownWhileClosed.of_open (h : s.filters ≠ none) :
    s.ShownWhileClosed :=
  fun _ hnone => absurd hnone h

theorem ShownWhileClosed.category (h : s.ShownWhileClosed) (hs : s.Coherent)
    {e : CategoryEvent} (hok : s.Possible (.category e))
    (hconsistent : s.Consistent (.category e)) {category : CategoryScreen}
    (he : s.category.handle e = some category) :
    ({ s with category := category }).ShownWhileClosed := by
  cases e with
  | snapshot items =>
      obtain rfl := Option.some.inj he
      intro hupdated' hclosed
      have hitems := hconsistent hclosed
      cases hupdated : s.category.view.updated with
      | true =>
          exact (filtered_snapshot_iff hupdated items).mpr fun item hitem =>
            ⟨(hitems item hitem).1, (hitems item hitem).2 hupdated⟩
      | false =>
          exact filtered_first hupdated (fun item hitem =>
            (hitems item hitem).1) hupdated'
  | snapshotFailed | addFailed =>
      obtain rfl := Option.some.inj he
      exact h.of_same rfl rfl rfl rfl
  | manufacturerAppended name | manufacturerRedused name =>
      obtain rfl := Option.some.inj he
      exact .of_open hok
  | filtersClosed minCost maxCost => exact hok.elim
  | addTapped row count isConnected =>
      obtain ⟨item, -, rfl⟩ := Option.map_eq_some_iff.mp he
      rw [CategoryScreen.addItemInBasket]
      split
      · exact h.of_same rfl rfl rfl rfl
      · exact h.of_same rfl rfl rfl rfl
  | added k =>
      intro _ hclosed
      obtain ⟨add, hadd, he⟩ := Option.bind_eq_some_iff.mp he
      have hupdated : s.category.view.updated = true := by
        refine hs.updated_of (Or.inl fun hnil => ?_)
        rw [hnil] at hadd
        cases hadd
      obtain ⟨items, hitems⟩ :=
        Option.ne_none_iff_exists'.mp (hs.items hupdated)
      exact (filtered_addDone_iff hupdated hitems he).mpr
        (hconsistent hclosed add hadd items hitems)

theorem ShownWhileClosed.handle {e : FiltersEvent} (h : s.ShownWhileClosed)
    (hs : s.Coherent) (hok : s.Possible e) (hconsistent : s.Consistent e)
    (he : s.handle slider e = some s') : s'.ShownWhileClosed := by
  cases e with
  | category e =>
      obtain ⟨category, hcategory, rfl⟩ := Option.map_eq_some_iff.mp he
      exact h.category hs hok hconsistent hcategory
  | popoverTapped =>
      rw [FilteredScreen.handle, FilteredScreen.showFiltersPopover] at he
      split at he
      · obtain ⟨filters, -, rfl⟩ := Option.map_eq_some_iff.mp he
        exact .of_open (Option.some_ne_none _)
      · obtain rfl := Option.some.inj he
        exact h
  | rowsAsked | sliderMoved selected =>
      obtain ⟨filters, -, rfl⟩ := Option.map_eq_some_iff.mp he
      exact .of_open (Option.some_ne_none _)
  | cellAsked row =>
      obtain ⟨-, -, rfl⟩ := Option.map_eq_some_iff.mp he
      exact h
  | popoverClosed =>
      obtain ⟨filters, hfilters, hclose⟩ := Option.bind_eq_some_iff.mp he
      have hupdated := hs.updated_of (Or.inr (Or.inr (Or.inr hok)))
      obtain ⟨items, hitems⟩ :=
        Option.ne_none_iff_exists'.mp (hs.items hupdated)
      intro _ _
      exact (filtered_closed_iff hupdated hitems hclose).mpr
        (hconsistent filters hfilters items hitems)

/-- What can happen, under the conditions on the handlers. -/
abbrev Agreeing (s : FilteredScreen) (e : FiltersEvent) : Prop :=
  s.Possible e ∧ s.Consistent e

theorem shownWhileClosed_of_run {s₀ : FilteredScreen} (h₀ : s₀.Coherent)
    (hshown : s₀.ShownWhileClosed)
    (h : Run (FilteredScreen.handle slider) Agreeing s₀ s) :
    s.Coherent ∧ s.ShownWhileClosed :=
  h.invariant (I := fun s => s.Coherent ∧ s.ShownWhileClosed)
    (fun _ _ _ hs hok he =>
      ⟨hs.1.handle hok.1 he, hs.2.handle hs.1 hok.1 hok.2 he⟩)
    ⟨h₀, hshown⟩

/-! Nothing takes back that a list has been shown. -/

theorem updated_showItems {s : CategoryScreen} (h : s.view.updated = true) :
    s.showItems.view.updated = true := by
  rw [CategoryScreen.showItems_of_updated h]

theorem updated_category {s category : CategoryScreen} {e : CategoryEvent}
    (h : s.view.updated = true) (he : s.handle e = some category) :
    category.view.updated = true := by
  cases e with
  | snapshot items =>
      obtain rfl := Option.some.inj he
      exact updated_showItems (s := ⟨_, s.view, s.adds⟩) h
  | snapshotFailed | addFailed =>
      obtain rfl := Option.some.inj he
      exact h
  | manufacturerAppended name | manufacturerRedused name =>
      obtain rfl := Option.some.inj he
      exact h
  | filtersClosed minCost maxCost =>
      obtain ⟨p, -, he⟩ := Option.bind_eq_some_iff.mp he
      obtain rfl := Option.some.inj he
      exact updated_showItems (s := ⟨p, s.view, s.adds⟩) h
  | addTapped row count isConnected =>
      obtain ⟨item, -, rfl⟩ := Option.map_eq_some_iff.mp he
      rw [CategoryScreen.addItemInBasket]
      split
      · exact h
      · exact h
  | added k =>
      obtain ⟨add, -, he⟩ := Option.bind_eq_some_iff.mp he
      obtain ⟨p, -, he⟩ := Option.bind_eq_some_iff.mp he
      obtain rfl := Option.some.inj he
      exact updated_showItems (s := ⟨_, s.view, _⟩) h

theorem updated_handle {e : FiltersEvent}
    (h : s.category.view.updated = true)
    (he : s.handle slider e = some s') :
    s'.category.view.updated = true := by
  cases e with
  | category e =>
      obtain ⟨category, hcategory, rfl⟩ := Option.map_eq_some_iff.mp he
      exact updated_category h hcategory
  | popoverTapped =>
      rw [FilteredScreen.handle, FilteredScreen.showFiltersPopover] at he
      split at he
      · obtain ⟨filters, -, rfl⟩ := Option.map_eq_some_iff.mp he
        exact h
      · obtain rfl := Option.some.inj he
        exact h
  | rowsAsked | sliderMoved selected =>
      obtain ⟨filters, -, rfl⟩ := Option.map_eq_some_iff.mp he
      exact h
  | cellAsked row =>
      obtain ⟨-, -, rfl⟩ := Option.map_eq_some_iff.mp he
      exact h
  | popoverClosed =>
      obtain ⟨filters, -, hclose⟩ := Option.bind_eq_some_iff.mp he
      obtain ⟨category, hcategory, rfl⟩ := Option.map_eq_some_iff.mp hclose
      exact updated_category h hcategory

theorem updated_snapshot {s : CategoryScreen} {items : List Item}
    (h : items ≠ []) : (s.snapshot items).view.updated = true := by
  cases hupdated : s.view.updated with
  | true => exact updated_category (e := .snapshot items) hupdated rfl
  | false =>
      rcases CategoryScreen.snapshot_of_fresh hupdated items with
        ⟨hnil, -⟩ | ⟨_, -, _, -, hs⟩
      · exact absurd hnil h
      · rw [hs]

/-- Whatever happens in whatever order, under the conditions: once a list with
anything in it has been shown, what is shown is what should be whenever the
popover is closed. -/
theorem filtered_of_run {s₀ : FilteredScreen}
    (h₀ : Run (FilteredScreen.handle slider) Agreeing start s₀)
    {items : List Item} (hitems : items ≠ [])
    (hok : s₀.Consistent (.category (.snapshot items)))
    (h : Run (FilteredScreen.handle slider) Agreeing
      { s₀ with category := s₀.category.snapshot items } s)
    (hclosed : s.filters = none) : s.Filtered := by
  obtain ⟨hcoherent, hshown⟩ :=
    shownWhileClosed_of_run coherent_start (fun h => by cases h) h₀
  obtain ⟨-, hend⟩ := shownWhileClosed_of_run (hcoherent.snapshot items)
    (hshown.category (e := .snapshot items) hcoherent trivial hok rfl) h
  refine hend ?_ hclosed
  exact h.invariant (I := fun s => s.category.view.updated = true)
    (fun _ _ _ hs _ he => updated_handle hs he) (updated_snapshot hitems)

instance (s : FilteredScreen) : DecidablePred s.Consistent
  | .category (.snapshot items) => inferInstanceAs (Decidable
      (s.filters = none → ∀ item ∈ items, 0 < item.count ∧
        (s.category.view.updated = true → s.category.presenter.Admits item)))
  | .category (.added k) => inferInstanceAs (Decidable
      (s.filters = none → ∀ add ∈ s.category.adds[k]?,
        ∀ items ∈ s.category.presenter.items,
        ∀ (i : ℕ) (hi : i < items.length),
          0 < items[i].count - (if add.itemIndex = i then add.count else 0) →
            s.category.presenter.Admits items[i]))
  | .popoverClosed => inferInstanceAs (Decidable
      (∀ filters ∈ s.filters, ∀ items ∈ s.category.presenter.items,
        ∀ item ∈ items,
          item.manufacturer ∈ s.category.presenter.checkManufacturers →
            filters.selected.minValue ≤ item.cost →
            item.cost ≤ filters.selected.maxValue → 0 < item.count))
  | .category .snapshotFailed | .category (.manufacturerAppended _)
  | .category (.manufacturerRedused _) | .category (.filtersClosed _ _)
  | .category (.addTapped _ _ _) | .category .addFailed | .popoverTapped
  | .rowsAsked | .cellAsked _ | .sliderMoved _ => .isTrue trivial

open CategoryScreen in
/-- The camera is filtered out by its price, a snapshot comes without it, and
two of the tripods are added. -/
theorem filtered_of_run_shop :
    ∃ s : FilteredScreen, s.filters = none ∧ s.category.view.items =
      some [{ shopTripod with count := 2 }] ∧ s.Filtered := by
  obtain ⟨s, h, hclosed, hitems⟩ :
      ∃ s, Run (FilteredScreen.handle RangeSeekSlider.selected) Agreeing
        { start with
          category := start.category.snapshot [shopCamera, shopTripod] } s ∧
        s.filters = none ∧
        s.category.view.items = some [{ shopTripod with count := 2 }] :=
    exists_run_of_play
      [.popoverTapped, .sliderMoved ⟨100, 400⟩, .popoverClosed,
        .category (.snapshot [{ shopTripod with count := 4 }]),
        .category (.addTapped 0 2 true), .category (.added 0)]
      (by decide +kernel)
  exact ⟨s, hclosed, hitems,
    filtered_of_run .refl (List.cons_ne_nil _ _) (by decide +kernel) h hclosed⟩

open CategoryScreen in
/-- The camera's manufacturer is unchecked and the popover closed. A snapshot
shows the camera all the same, and so does adding a tripod. And once the last
tripod has been added, closing the popover shows it with none left. -/
theorem filtered_fails :
    (∃ s, Run (FilteredScreen.handle RangeSeekSlider.selected) Possible start s ∧
      s.filters = none ∧ s.category.presenter.checkManufacturers =
        {"Manfrotto"} ∧
      s.category.view.items = some [shopCamera, shopTripod] ∧ ¬ s.Filtered) ∧
    (∃ s, Run (FilteredScreen.handle RangeSeekSlider.selected) Possible start s ∧
      s.filters = none ∧ s.category.presenter.checkManufacturers =
        {"Manfrotto"} ∧
      s.category.view.items =
        some [shopCamera, { shopTripod with count := 4 }] ∧ ¬ s.Filtered) ∧
    ∃ s, Run (FilteredScreen.handle RangeSeekSlider.selected) Possible start s ∧
      s.filters = none ∧
      s.category.view.items = some [{ shopTripod with count := 0 }] ∧
      ¬ s.Filtered := by
  refine ⟨?_, ?_, ?_⟩
  · exact exists_run_of_play
      [.category (.snapshot [shopCamera, shopTripod]), .popoverTapped,
        .category (.manufacturerRedused "Canon"), .popoverClosed,
        .category (.snapshot [shopCamera, shopTripod])] (by decide +kernel)
  · exact exists_run_of_play
      [.category (.snapshot [shopCamera, shopTripod]),
        .category (.addTapped 1 1 true), .popoverTapped,
        .category (.manufacturerRedused "Canon"), .popoverClosed,
        .category (.added 0)] (by decide +kernel)
  · exact exists_run_of_play
      [.category (.snapshot [shopTripod]), .category (.addTapped 0 5 true),
        .category (.added 0), .popoverTapped, .popoverClosed]
      (by decide +kernel)

end FilteredScreen

end PhoRent
