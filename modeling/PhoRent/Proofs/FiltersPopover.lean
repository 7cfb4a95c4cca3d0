import PhoRent.App.FiltersView
import PhoRent.Proofs.AddFromRow

/-!
# The popover with the filters

Two flags say when the popover may be used. `updated` is set when the first
list with anything in it is shown, together with the manufacturers and the
range of costs, and never taken back. `filtersAreAvialable` is set at every
such list and taken back when a snapshot fails.

The first is enough for what happens while the popover is open: the
manufacturers stay what they were when the array was made of them, and the
range has both its ends. The second is not enough to open it. An empty list
sets neither flag back, and there is no lowest cost then to unwrap.
-/

namespace PhoRent

open Machine

namespace CategoryPresenter

variable {self : CategoryPresenter}

/-- The manufacturer is checked, and the cost is within the range. -/
def Admits (self : CategoryPresenter) (item : Item) : Prop :=
  item.manufacturer ∈ self.checkManufacturers ∧
    (∃ minCost ∈ self.costRange.minCost, minCost ≤ item.cost) ∧
    ∃ maxCost ∈ self.costRange.maxCost, item.cost ≤ maxCost

instance (self : CategoryPresenter) : DecidablePred self.Admits := fun item =>
  inferInstanceAs (Decidable (item.manufacturer ∈ self.checkManufacturers ∧
    (∃ minCost ∈ self.costRange.minCost, minCost ≤ (item.cost : ℚ)) ∧
    ∃ maxCost ∈ self.costRange.maxCost, (item.cost : ℚ) ≤ maxCost))

/-- With both keys in place nothing traps, and the filter lets through what it
should. -/
theorem filtered_of_range {minCost maxCost : ℚ}
    (h : self.costRange = ⟨some minCost, some maxCost⟩) (items : List Item) :
    self.filtered items =
      some (items.filter fun item => decide (self.Admits item)) := by
  have hpasses : ∀ item, self.passes item = some (decide (self.Admits item)) := by
    intro item
    rw [passes, h]
    by_cases hm : item.manufacturer ∈ self.checkManufacturers
    · by_cases hmin : minCost ≤ item.cost
      · simp [Admits, h, hm, hmin]
      · simp [Admits, h, hm, hmin]
    · simp [Admits, hm]
  induction items with
  | nil => rfl
  | cons item rest ih =>
      rw [filtered, hpasses, ih, List.filter_cons]
      rfl

theorem filterItems_of_range {minCost maxCost : ℚ}
    (h : self.costRange = ⟨some minCost, some maxCost⟩) :
    self.filterItems = some { self with
      shownItems := some ((self.items.getD []).filter fun item =>
        decide (self.Admits item)) } := by
  rw [filterItems, filtered_of_range h]
  rfl

end CategoryPresenter

namespace CategoryScreen

variable {s s' : CategoryScreen}

def Filled (items : Option (List Item)) : Prop :=
  items.map List.length ≠ some 0

instance (items : Option (List Item)) : Decidable (Filled items) :=
  inferInstanceAs (Decidable (_ ≠ _))

theorem showItems_of_updated (h : s.view.updated = true) :
    s.showItems = { s with view := ⟨s.presenter.shownItems, true,
      s.view.filtersAreAvialable || decide (Filled s.presenter.shownItems)⟩ } := by
  obtain ⟨p, ⟨items, updated, available⟩, adds⟩ := s
  obtain rfl : updated = true := h
  unfold showItems success
  by_cases hfilled : Filled p.shownItems
  · rw [if_neg hfilled]
    simp [hfilled]
  · rw [if_pos (not_not.mp hfilled)]
    simp [hfilled]

theorem snapshot_of_updated (h : s.view.updated = true) (items : List Item) :
    s.snapshot items = { s with
      presenter := { s.presenter with
        items := some items
        shownItems := some items }
      view := ⟨some items, true,
        s.view.filtersAreAvialable || decide (Filled (some items))⟩ } :=
  showItems_of_updated (s := ⟨{ s.presenter with
    items := some items
    shownItems := some items }, s.view, s.adds⟩) h

theorem filtersClosed_of_updated (h : s.view.updated = true)
    (minCost maxCost : ℚ) :
    ∃ shown : List Item,
      (∀ item, item ∈ shown ↔ item ∈ s.presenter.items.getD [] ∧
        (s.presenter.setCostRange minCost maxCost).Admits item) ∧
      s.handle (.filtersClosed minCost maxCost) = some { s with
        presenter := { s.presenter with
          costRange := ⟨some minCost, some maxCost⟩
          shownItems := some shown }
        view := ⟨some shown, true,
          s.view.filtersAreAvialable || decide (Filled (some shown))⟩ } := by
  refine ⟨(s.presenter.items.getD []).filter fun item =>
    decide ((s.presenter.setCostRange minCost maxCost).Admits item),
    fun item => ?_, ?_⟩
  · exact List.mem_filter.trans (and_congr_right fun _ => decide_eq_true_iff)
  · rw [handle, closeFilters, CategoryPresenter.filterItems_of_range rfl]
    exact congrArg some (showItems_of_updated (s := ⟨_, s.view, s.adds⟩) h)

/-- A snapshot before anything has been shown. The first with anything in it
has everything collected from it. -/
theorem snapshot_of_fresh (h : s.view.updated = false) (items : List Item) :
    (items = [] ∧ s.snapshot items = { s with
        presenter := { s.presenter with
          items := some []
          shownItems := some [] }
        view := { s.view with items := some [] } }) ∨
    ∃ minCost ∈ (items.map Item.cost).min?,
      ∃ maxCost ∈ (items.map Item.cost).max?,
        s.snapshot items = { s with
          presenter := ⟨some items, some items,
            (items.map Item.manufacturer).toFinset,
            (items.map Item.manufacturer).toFinset,
            ⟨some minCost, some maxCost⟩⟩
          view := ⟨some items, true, true⟩ } := by
  obtain ⟨p, ⟨shown, updated, available⟩, adds⟩ := s
  obtain rfl : updated = false := h
  cases items with
  | nil => exact Or.inl ⟨rfl, rfl⟩
  | cons item rest => exact Or.inr ⟨_, rfl, _, rfl, rfl⟩

end CategoryScreen

namespace FilteredScreen

variable {slider : Slider} {s s' : FilteredScreen}

structure Coherent (s : FilteredScreen) : Prop where
  fresh : s.category.view.updated = false →
    s.category.adds = [] ∧ s.category.view.items.getD [] = [] ∧
      s.category.view.filtersAreAvialable = false ∧ s.filters = none
  items : s.category.view.updated = true → s.category.presenter.items ≠ none
  range : s.category.view.updated = true → ∃ minCost maxCost,
    s.category.presenter.costRange = ⟨some minCost, some maxCost⟩
  shown : s.category.view.items = s.category.presenter.shownItems
  rows : ∀ filters ∈ s.filters,
    filters.manufacturersArray.length =
      s.category.presenter.manufacturers.card ∧
    filters.rows ≤ s.category.presenter.manufacturers.card

theorem coherent_start : start.Coherent where
  fresh _ := ⟨rfl, rfl, rfl, rfl⟩
  items h := by cases h
  range h := by cases h
  shown := rfl
  rows _ h := by cases h

/-- An open popover, an available one and an add under way all come after the
first list. -/
theorem Coherent.updated_of (h : s.Coherent)
    (hs : s.category.adds ≠ [] ∨ s.category.view.items.getD [] ≠ [] ∨
      s.category.view.filtersAreAvialable = true ∨ s.filters ≠ none) :
    s.category.view.updated = true := by
  by_contra hne
  obtain ⟨hadds, hitems, havailable, hfilters⟩ :=
    h.fresh (Bool.eq_false_of_not_eq_true hne)
  rcases hs with h | h | h | h
  · exact h hadds
  · exact h hitems
  · rw [havailable] at h
    cases h
  · exact h hfilters

theorem Coherent.showItems {p : CategoryPresenter} {adds : List PendingAdd}
    (h : s.Coherent) (hupdated : s.category.view.updated = true)
    (hitems : p.items ≠ none)
    (hmanufacturers :
      p.manufacturers = s.category.presenter.manufacturers)
    (hrange : ∃ minCost maxCost, p.costRange = ⟨some minCost, some maxCost⟩)
    {filters : Option FiltersView}
    (hfilters : filters = none ∨ filters = s.filters) :
    (⟨CategoryScreen.showItems ⟨p, s.category.view, adds⟩, filters⟩ :
      FilteredScreen).Coherent := by
  rw [CategoryScreen.showItems_of_updated (s := ⟨p, _, adds⟩) hupdated]
  refine ⟨fun hfresh => ?_, fun _ => hitems, fun _ => hrange, rfl, ?_⟩
  · cases hfresh
  · intro f hf
    rcases hfilters with rfl | rfl
    · cases hf
    · rw [hmanufacturers]
      exact h.rows f hf

theorem Coherent.snapshot (h : s.Coherent) (items : List Item) :
    ({ s with category := s.category.snapshot items }).Coherent := by
  cases hupdated : s.category.view.updated with
  | true =>
      exact h.showItems (p := { s.category.presenter with
          items := some items
          shownItems := some items }) hupdated
        (Option.some_ne_none items) rfl (h.range hupdated) (Or.inr rfl)
  | false =>
      obtain ⟨hadds, hitems, havailable, hfilters⟩ := h.fresh hupdated
      rcases CategoryScreen.snapshot_of_fresh hupdated items with
        ⟨-, hs⟩ | ⟨minCost, -, maxCost, -, hs⟩
      · rw [hs]
        refine ⟨fun _ => ⟨hadds, rfl, havailable, hfilters⟩, ?_, ?_, rfl,
          h.rows⟩
        · intro h
          exact absurd (hupdated.symm.trans h) Bool.false_ne_true
        · intro h
          exact absurd (hupdated.symm.trans h) Bool.false_ne_true
      · rw [hs]
        refine ⟨fun h => ?_, fun _ => Option.some_ne_none items,
          fun _ => ⟨minCost, maxCost, rfl⟩, rfl, fun f hf => ?_⟩
        · cases h
        · rw [hfilters] at hf
          cases hf

theorem Coherent.failure (h : s.Coherent) :
    ({ s with category := s.category.failure }).Coherent := by
  refine ⟨fun hfresh => ?_, h.items, h.range, h.shown, h.rows⟩
  obtain ⟨hadds, hitems, -, hfilters⟩ := h.fresh hfresh
  exact ⟨hadds, hitems, rfl, hfilters⟩

theorem Coherent.addTapped (h : s.Coherent) {row : ℕ} {count : ℤ}
    {isConnected : Bool} {category : CategoryScreen}
    (hs : s.category.handle (.addTapped row count isConnected) =
      some category) : ({ s with category := category }).Coherent := by
  obtain ⟨item, hrow, rfl⟩ := Option.map_eq_some_iff.mp hs
  rw [CategoryScreen.addItemInBasket]
  split
  · have hupdated : s.category.view.updated = true := by
      refine h.updated_of (Or.inr (Or.inl fun hnil => ?_))
      obtain ⟨items, hitems, hrow⟩ := Option.bind_eq_some_iff.mp hrow
      rw [hitems, Option.getD_some] at hnil
      rw [hnil] at hrow
      cases hrow
    refine ⟨fun hfresh => ?_, h.items, h.range, h.shown, h.rows⟩
    exact absurd (hupdated.symm.trans hfresh) Bool.false_ne_true.symm
  · exact h.failure

theorem lowerCount_kept {p p' : CategoryPresenter} {k : ℕ} {c : ℤ}
    (h : p.lowerCount k c = some p') :
    p'.manufacturers = p.manufacturers ∧
      p'.checkManufacturers = p.checkManufacturers ∧
      p'.costRange = p.costRange ∧ (p.items ≠ none → p'.items ≠ none) := by
  rw [CategoryPresenter.lowerCount] at h
  split at h
  · obtain rfl := Option.some.inj h
    exact ⟨rfl, rfl, rfl, id⟩
  · split at h
    · obtain rfl := Option.some.inj h
      exact ⟨rfl, rfl, rfl, fun _ => Option.some_ne_none _⟩
    · cases h

theorem Coherent.added (h : s.Coherent) {k : ℕ} {category : CategoryScreen}
    (hs : s.category.handle (.added k) = some category) :
    ({ s with category := category }).Coherent := by
  obtain ⟨add, hadd, hs⟩ := Option.bind_eq_some_iff.mp hs
  have hupdated : s.category.view.updated = true := by
    refine h.updated_of (Or.inl fun hnil => ?_)
    rw [hnil] at hadd
    cases hadd
  obtain ⟨p, hp, hs⟩ := Option.bind_eq_some_iff.mp hs
  obtain rfl := Option.some.inj hs
  obtain ⟨hmanufacturers, -, hrange, hitems⟩ := lowerCount_kept hp
  exact h.showItems (p := { p with shownItems := p.items.map _ }) hupdated
    (hitems (h.items hupdated)) hmanufacturers
    (hrange.symm ▸ h.range hupdated) (Or.inr rfl)

theorem Coherent.showFiltersPopover (h : s.Coherent)
    (hs : s.showFiltersPopover slider = some s') : s'.Coherent := by
  rw [FilteredScreen.showFiltersPopover] at hs
  split at hs
  · next hopen =>
      obtain ⟨filters, hfilters, rfl⟩ := Option.map_eq_some_iff.mp hs
      obtain ⟨selected, -, hfilters⟩ := Option.bind_eq_some_iff.mp hfilters
      obtain rfl := Option.some.inj hfilters
      have hupdated := h.updated_of (Or.inr (Or.inr (Or.inl hopen.2)))
      refine ⟨fun hfresh => ?_, h.items, h.range, h.shown, fun f hf => ?_⟩
      · exact absurd (hupdated.symm.trans hfresh) Bool.false_ne_true.symm
      · obtain rfl := Option.some.inj hf
        exact ⟨Finset.length_sort _, Nat.zero_le _⟩
  · obtain rfl := Option.some.inj hs
    exact h

theorem Coherent.popoverClosed (h : s.Coherent)
    (hs : s.handle slider .popoverClosed = some s') : s'.Coherent := by
  obtain ⟨filters, hfilters, hclose⟩ := Option.bind_eq_some_iff.mp hs
  obtain ⟨category, hcategory, rfl⟩ := Option.map_eq_some_iff.mp hclose
  have hupdated := h.updated_of (Or.inr (Or.inr (Or.inr
    (by rw [hfilters]; exact Option.some_ne_none _))))
  obtain ⟨p, hp, hshow⟩ := Option.bind_eq_some_iff.mp hcategory
  obtain rfl := Option.some.inj hshow
  obtain ⟨shown, -, hp⟩ := Option.bind_eq_some_iff.mp hp
  obtain rfl := Option.some.inj hp
  exact h.showItems (p := { s.category.presenter with
      costRange := ⟨some _, some _⟩
      shownItems := some shown }) hupdated
    (h.items hupdated) rfl ⟨_, _, rfl⟩ (Or.inl rfl)

/-- The step lemma: whatever happens, the flags keep their promise. -/
theorem Coherent.handle {e : FiltersEvent} (h : s.Coherent)
    (hok : s.Possible e) (hs : s.handle slider e = some s') : s'.Coherent := by
  cases e with
  | category e =>
      obtain ⟨category, hcategory, rfl⟩ := Option.map_eq_some_iff.mp hs
      cases e with
      | snapshot items =>
          obtain rfl := Option.some.inj hcategory
          exact h.snapshot items
      | snapshotFailed =>
          obtain rfl := Option.some.inj hcategory
          exact h.failure
      | manufacturerAppended name | manufacturerRedused name =>
          obtain rfl := Option.some.inj hcategory
          exact ⟨h.fresh, h.items, h.range, h.shown, h.rows⟩
      | filtersClosed minCost maxCost => exact hok.elim
      | addTapped row count isConnected => exact h.addTapped hcategory
      | added k => exact h.added hcategory
      | addFailed =>
          obtain rfl := Option.some.inj hcategory
          exact h
  | popoverTapped => exact h.showFiltersPopover hs
  | rowsAsked =>
      obtain ⟨filters, hfilters, rfl⟩ := Option.map_eq_some_iff.mp hs
      refine ⟨fun hfresh => ?_, h.items, h.range, h.shown, fun f hf => ?_⟩
      · rw [(h.fresh hfresh).2.2.2] at hfilters
        cases hfilters
      · obtain rfl := Option.some.inj hf
        exact ⟨(h.rows filters hfilters).1, le_refl _⟩
  | cellAsked row =>
      obtain ⟨-, -, rfl⟩ := Option.map_eq_some_iff.mp hs
      exact h
  | sliderMoved selected =>
      obtain ⟨filters, hfilters, rfl⟩ := Option.map_eq_some_iff.mp hs
      refine ⟨fun hfresh => ?_, h.items, h.range, h.shown, fun f hf => ?_⟩
      · rw [(h.fresh hfresh).2.2.2] at hfilters
        cases hfilters
      · obtain rfl := Option.some.inj hf
        exact h.rows filters hfilters
  | popoverClosed => exact h.popoverClosed hs

theorem coherent_of_run (h : Run (FilteredScreen.handle slider) Possible start s) :
    s.Coherent :=
  h.invariant (fun _ _ _ h => h.handle) coherent_start

/-! ## The popover's own events -/

def OverItems (s : FilteredScreen) : FiltersEvent → Prop
  | .popoverTapped => s.filters = none →
      s.category.view.filtersAreAvialable = true →
      s.category.presenter.items ≠ some []
  | _ => True

theorem viewDidLoad_ne_none_iff {presenter : CategoryPresenter}
    (h : presenter.items ≠ none) :
    FiltersView.viewDidLoad slider presenter ≠ none ↔
      presenter.items ≠ some [] := by
  obtain ⟨items, hitems⟩ := Option.ne_none_iff_exists'.mp h
  rw [FiltersView.viewDidLoad, FiltersView.setupView,
    CategoryPresenter.getMinCost, CategoryPresenter.getMaxCost, hitems]
  cases items with
  | nil => simp
  | cons item rest => simp

/-- In every state a run reaches, whatever the popover does next: it unwraps
no missing cost and no missing key, and asks the array for no row it does not
have, exactly if it is not just being opened over an empty list. -/
theorem popover_handled_iff
    (h : Run (FilteredScreen.handle slider) Possible start s)
    {e : FiltersEvent} (hok : s.Possible e) (hpopover : ∀ c, e ≠ .category c) :
    s.handle slider e ≠ none ↔ s.OverItems e := by
  have hcoherent := coherent_of_run h
  cases e with
  | category e => exact absurd rfl (hpopover e)
  | popoverTapped =>
      rw [handle, FilteredScreen.showFiltersPopover, OverItems]
      split
      · next hopen =>
          have hupdated :=
            hcoherent.updated_of (Or.inr (Or.inr (Or.inl hopen.2)))
          rw [ne_eq, Option.map_eq_none_iff, ← ne_eq,
            viewDidLoad_ne_none_iff (hcoherent.items hupdated)]
          exact ⟨fun h _ _ => h, fun h => h hopen.1 hopen.2⟩
      · next hclosed =>
          exact iff_of_true (Option.some_ne_none _) fun hnone havailable =>
            absurd ⟨hnone, havailable⟩ hclosed
  | rowsAsked | sliderMoved selected =>
      obtain ⟨filters, hfilters⟩ := Option.ne_none_iff_exists'.mp hok
      rw [handle, hfilters]
      exact iff_of_true (Option.some_ne_none _) trivial
  | cellAsked row =>
      obtain ⟨filters, hfilters, hrow⟩ := hok
      obtain ⟨hlength, hrows⟩ := hcoherent.rows filters hfilters
      have hlt : row < filters.manufacturersArray.length := by omega
      rw [handle, Option.mem_def.mp hfilters, Option.bind_some,
        FiltersView.cellForRow, List.getElem?_eq_getElem hlt]
      exact iff_of_true (Option.some_ne_none _) trivial
  | popoverClosed =>
      obtain ⟨filters, hfilters⟩ := Option.ne_none_iff_exists'.mp hok
      rw [handle, hfilters, Option.bind_some, viewWillDisappear,
        CategoryScreen.handle, CategoryScreen.closeFilters,
        CategoryPresenter.filterItems_of_range rfl]
      exact iff_of_true (Option.some_ne_none _) trivial

/-- The popover is open over two items, and its table asks for the second
row. -/
theorem popover_handled_shop :
    ∃ s, Run (FilteredScreen.handle RangeSeekSlider.selected) Possible start s ∧
      s.handle RangeSeekSlider.selected (.cellAsked 1) ≠ none := by
  obtain ⟨s, hrun, hok⟩ :
      ∃ s, Run (FilteredScreen.handle RangeSeekSlider.selected) Possible start s ∧
        s.Possible (.cellAsked 1) :=
    exists_run_of_play
      [.category (.snapshot [CategoryScreen.shopCamera,
          CategoryScreen.shopTripod]), .popoverTapped, .rowsAsked]
      (by decide +kernel)
  exact ⟨s, hrun, (popover_handled_iff hrun hok (by simp)).mpr trivial⟩

/-- The last item goes while the filters are available, and the button opens
them over nothing. -/
theorem popover_handled_fails :
    ∃ s, Run (FilteredScreen.handle RangeSeekSlider.selected) Possible start s ∧
      s.category.view.filtersAreAvialable = true ∧
      s.handle RangeSeekSlider.selected .popoverTapped = none :=
  exists_run_of_play
    [.category (.snapshot [CategoryScreen.shopTripod]),
      .category (.snapshot [])] (by decide +kernel)

end FilteredScreen

end PhoRent
