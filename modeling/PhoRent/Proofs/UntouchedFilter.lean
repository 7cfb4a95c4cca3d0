import PhoRent.Proofs.FiltersPopover

/-!
# A filter nobody has touched

The manufacturers are collected once, from the first list with anything in it,
and so is the range of costs to begin with. From then on the popover goes by
what it has: no manufacturer is added, and whenever it closes the range is what
the slider has made of the old one, given the costs of the list it was opened
over.

What a closing hides can be told from the lists alone: from the first, from
those the popover has been opened over, and from the current one.
-/

namespace PhoRent

open Machine

def costBounds (items : List Item) : Bounds :=
  ⟨((items.map Item.cost).min?.getD 0 : ℤ),
    ((items.map Item.cost).max?.getD 0 : ℤ)⟩

def Bounds.Within (bounds : Bounds) (cost : ℤ) : Prop :=
  bounds.minValue ≤ cost ∧ cost ≤ bounds.maxValue

/-- The lists a run has seen: the current one, the first with anything in it,
and one for each time the popover was opened. -/
structure Catalogs where
  current : List Item
  first : Option (List Item)
  visits : List (List Item)
  isOpen : Bool

instance (bounds : Bounds) : DecidablePred bounds.Within := fun cost =>
  inferInstanceAs (Decidable (bounds.minValue ≤ (cost : ℚ) ∧
    (cost : ℚ) ≤ bounds.maxValue))

namespace Catalogs

def start : Catalogs := ⟨[], none, [], false⟩

def next (self : Catalogs) : FiltersEvent → Catalogs
  | .category (.snapshot items) => { self with
      current := items
      first := self.first.or (if items = [] then none else some items) }
  | .popoverTapped =>
      if self.isOpen = false ∧ self.first ≠ none then { self with
        visits := self.visits ++ [self.current]
        isOpen := true }
      else self
  | .popoverClosed => { self with isOpen := false }
  | _ => self

variable (slider : Slider) (self : Catalogs)

/-- The costs of the first list, put through the slider at every visit. -/
def carried : Bounds :=
  self.visits.foldl (fun given items => slider (costBounds items) given)
    (costBounds (self.first.getD []))

/-- The item's manufacturer is one of the first list, and its cost has been
carried along. -/
def Covers (item : Item) : Prop :=
  item.manufacturer ∈ (self.first.getD []).map Item.manufacturer ∧
    (self.carried slider).Within item.cost

instance : DecidablePred (self.Covers slider) := fun item =>
  inferInstanceAs (Decidable (item.manufacturer ∈
    (self.first.getD []).map Item.manufacturer ∧
      (self.carried slider).Within item.cost))

/-- The slider of the app never widens: a cost is carried along if it is within
the costs of every list the popover was opened over, and of the first. -/
theorem within_rangeSeekSlider {cost : ℤ} :
    (self.carried RangeSeekSlider.selected).Within cost ↔
      ∀ items ∈ self.first.getD [] :: self.visits,
        (costBounds items).Within cost := by
  rw [carried, List.forall_mem_cons]
  generalize costBounds (self.first.getD []) = given
  induction self.visits generalizing given with
  | nil => simp
  | cons items rest ih =>
      rw [List.foldl_cons, ih, List.forall_mem_cons, ← and_assoc]
      refine and_congr_left fun _ => ?_
      simp only [Bounds.Within, RangeSeekSlider.selected, max_le_iff,
        le_min_iff]
      tauto

end Catalogs

namespace FilteredScreen

variable {slider : Slider} {s s' : FilteredScreen} {c : Catalogs}

def Untouched (s : FilteredScreen) (e : FiltersEvent) : Prop :=
  s.Possible e ∧ match e with
    | .category (.snapshot _) | .popoverTapped | .rowsAsked | .cellAsked _
    | .popoverClosed => True
    | _ => False

def HidesNothing (s : FilteredScreen) : Prop :=
  ∀ items ∈ s.category.presenter.items, ∀ item ∈ items,
    ∃ shown ∈ s.category.presenter.shownItems, item ∈ shown

structure Recalls (slider : Slider) (s : FilteredScreen) (c : Catalogs) :
    Prop where
  opened : c.isOpen = true ↔ s.filters ≠ none
  before : c.first = none → c.visits = [] ∧ s.filters = none ∧
    s.category.view.updated = false ∧
    s.category.view.filtersAreAvialable = false
  after : c.first ≠ none → s.category.view.updated = true ∧
    s.category.view.filtersAreAvialable = true ∧
    s.category.presenter.items = some c.current ∧
    s.category.presenter.checkManufacturers =
      ((c.first.getD []).map Item.manufacturer).toFinset
  closedRange : c.first ≠ none → s.filters = none →
    s.category.presenter.costRange =
      ⟨some (c.carried slider).minValue, some (c.carried slider).maxValue⟩
  openRange : ∀ filters ∈ s.filters, filters.selected = c.carried slider

theorem recalls_start : start.Recalls slider .start where
  opened := by simp [start, Catalogs.start]
  before _ := ⟨rfl, rfl, rfl, rfl⟩
  after h := absurd rfl h
  closedRange h := absurd rfl h
  openRange _ h := by cases h

theorem costBounds_eq {items : List Item} {minCost maxCost : ℤ}
    (hmin : (items.map Item.cost).min? = some minCost)
    (hmax : (items.map Item.cost).max? = some maxCost) :
    costBounds items = ⟨minCost, maxCost⟩ := by
  rw [costBounds, hmin, hmax]
  rfl

theorem Recalls.snapshot (h : s.Recalls slider c) (items : List Item) :
    ({ s with category := s.category.snapshot items }).Recalls slider
      (c.next (.category (.snapshot items))) := by
  obtain ⟨current, first, visits, isOpen⟩ := c
  cases first with
  | none =>
      obtain ⟨hvisits, hfilters, hupdated, havailable⟩ := h.before rfl
      obtain rfl : visits = [] := hvisits
      rcases CategoryScreen.snapshot_of_fresh hupdated items with
        ⟨rfl, hs⟩ | ⟨minCost, hmin, maxCost, hmax, hs⟩
      · rw [hs]
        exact ⟨h.opened, fun _ => ⟨rfl, hfilters, hupdated, havailable⟩,
          fun hne => absurd rfl hne, fun hne => absurd rfl hne, h.openRange⟩
      · have hne : items ≠ [] := by
          rintro rfl
          cases hmin
        rw [hs, Catalogs.next, if_neg hne]
        refine ⟨h.opened, fun hnone => ?_, fun _ => ⟨rfl, rfl, rfl, rfl⟩,
          fun _ _ => ?_, fun f hf => ?_⟩
        · cases hnone
        · simp only [Catalogs.carried, Option.none_or, Option.getD_some,
            List.foldl_nil, costBounds_eq hmin hmax]
        · rw [hfilters] at hf
          cases hf
  | some first =>
      obtain ⟨hupdated, havailable, -, hcheck⟩ :=
        h.after (Option.some_ne_none first)
      rw [CategoryScreen.snapshot_of_updated hupdated]
      refine ⟨h.opened, fun hnone => ?_, fun _ => ⟨rfl, ?_, rfl, hcheck⟩,
        h.closedRange, h.openRange⟩
      · cases hnone
      · rw [havailable]
        rfl

theorem Recalls.popoverTapped (h : s.Recalls slider c)
    (hs : s.handle slider .popoverTapped = some s') :
    s'.Recalls slider (c.next .popoverTapped) := by
  rw [FilteredScreen.handle, FilteredScreen.showFiltersPopover] at hs
  have hopened := h.opened
  split at hs
  · next hopen =>
      have hfirst : c.first ≠ none := by
        intro hnone
        rw [(h.before hnone).2.2.2] at hopen
        cases hopen.2
      have hclosed : c.isOpen = false := by
        rw [← Bool.not_eq_true, hopened]
        exact not_not.mpr hopen.1
      obtain ⟨hupdated, havailable, hitems, hcheck⟩ := h.after hfirst
      obtain ⟨filters, hfilters, rfl⟩ := Option.map_eq_some_iff.mp hs
      obtain ⟨selected, hselected, hfilters⟩ :=
        Option.bind_eq_some_iff.mp hfilters
      obtain rfl := Option.some.inj hfilters
      obtain ⟨minCost, hmin, hselected⟩ := Option.bind_eq_some_iff.mp hselected
      obtain ⟨maxCost, hmax, hselected⟩ := Option.bind_eq_some_iff.mp hselected
      rw [CategoryPresenter.getMinCost, hitems] at hmin
      rw [CategoryPresenter.getMaxCost, hitems] at hmax
      rw [Catalogs.next, if_pos ⟨hclosed, hfirst⟩]
      refine ⟨iff_of_true rfl (Option.some_ne_none _), fun hnone => ?_,
        fun _ => ⟨hupdated, havailable, hitems, hcheck⟩, fun _ hnone => ?_,
        fun f hf => ?_⟩
      · exact absurd hnone hfirst
      · cases hnone
      · obtain rfl := Option.some.inj hf
        obtain rfl := Option.some.inj hselected
        simp only [Catalogs.carried, List.foldl_append, List.foldl_cons,
          List.foldl_nil, costBounds_eq hmin hmax,
          h.closedRange hfirst hopen.1, Option.getD_some]
  · next hopen =>
      obtain rfl := Option.some.inj hs
      rw [Catalogs.next, if_neg]
      · exact h
      · rintro ⟨hclosed, hfirst⟩
        refine hopen ⟨?_, (h.after hfirst).2.1⟩
        by_contra hne
        rw [hopened.mpr hne] at hclosed
        cases hclosed

theorem Recalls.popoverClosed (h : s.Recalls slider c)
    (hs : s.handle slider .popoverClosed = some s') :
    s'.Recalls slider (c.next .popoverClosed) ∧
      (s'.HidesNothing ↔ ∀ item ∈ c.current, c.Covers slider item) := by
  obtain ⟨filters, hfilters, hclose⟩ := Option.bind_eq_some_iff.mp hs
  have hselected := h.openRange filters hfilters
  have hfirst : c.first ≠ none := by
    intro hnone
    rw [(h.before hnone).2.1] at hfilters
    cases hfilters
  obtain ⟨hupdated, havailable, hitems, hcheck⟩ := h.after hfirst
  obtain ⟨category, hcategory, rfl⟩ := Option.map_eq_some_iff.mp hclose
  obtain ⟨shown, hshown, hclosed⟩ := CategoryScreen.filtersClosed_of_updated
    hupdated filters.selected.minValue filters.selected.maxValue
  obtain rfl := Option.some.inj (hclosed.symm.trans hcategory)
  constructor
  · refine ⟨iff_of_false Bool.false_ne_true fun hne => hne rfl, fun hnone => ?_,
      fun _ => ⟨rfl, ?_, hitems, hcheck⟩, fun _ _ => ?_, fun f hf => ?_⟩
    · exact absurd hnone hfirst
    · rw [havailable]
      rfl
    · rw [hselected]
      rfl
    · cases hf
  · rw [hitems, Option.getD_some] at hshown
    simp only [HidesNothing, hitems, Option.mem_some_iff, forall_eq',
      exists_eq_left']
    refine forall₂_congr fun item hitem => ?_
    rw [hshown, and_iff_right hitem]
    simp only [CategoryPresenter.Admits, CategoryPresenter.setCostRange,
      hcheck, hselected, List.mem_toFinset, Option.mem_some_iff,
      exists_eq_left']
    exact Iff.rfl

theorem Recalls.handle {e : FiltersEvent} (h : s.Recalls slider c)
    (hok : s.Untouched e) (hs : s.handle slider e = some s') :
    s'.Recalls slider (c.next e) := by
  obtain ⟨hpossible, hok⟩ := hok
  cases e with
  | category e =>
      obtain ⟨category, hcategory, rfl⟩ := Option.map_eq_some_iff.mp hs
      cases e with
      | snapshot items =>
          obtain rfl := Option.some.inj hcategory
          exact h.snapshot items
      | _ => exact hok.elim
  | popoverTapped => exact h.popoverTapped hs
  | rowsAsked =>
      obtain ⟨filters, hfilters, rfl⟩ := Option.map_eq_some_iff.mp hs
      have hsome := iff_of_true (h.opened.mpr hpossible)
        (Option.some_ne_none { filters with
          rows := FiltersView.numberOfRows s.category.presenter })
      refine ⟨hsome, fun hnone => ?_, h.after, fun _ hnone => ?_, fun f hf => ?_⟩
      · exact absurd (h.before hnone).2.1 hpossible
      · cases hnone
      · obtain rfl := Option.some.inj hf
        exact h.openRange filters hfilters
  | cellAsked row =>
      obtain ⟨-, -, rfl⟩ := Option.map_eq_some_iff.mp hs
      exact h
  | sliderMoved selected => exact hok.elim
  | popoverClosed => exact (h.popoverClosed hs).1

theorem recalls_of_play [∀ s, DecidablePred (Untouched s)]
    {l : List FiltersEvent} (h : s.Recalls slider c)
    (hl : play (FilteredScreen.handle slider) Untouched l s = some s') :
    s'.Recalls slider (l.foldl Catalogs.next c) := by
  induction l generalizing s c with
  | nil =>
      obtain rfl := Option.some.inj hl
      exact h
  | cons e rest ih =>
      rw [play] at hl
      split at hl
      · next hok =>
          obtain ⟨s₁, hs₁, hrest⟩ := Option.bind_eq_some_iff.mp hl
          exact ih (h.handle hok hs₁) hrest
      · cases hl

instance (s : FilteredScreen) : DecidablePred s.Untouched := fun e =>
  match e with
  | .category (.snapshot _) | .popoverTapped | .rowsAsked | .cellAsked _
  | .popoverClosed => decidable_of_iff (s.Possible _) (and_iff_left trivial).symm
  | .category .snapshotFailed | .category (.manufacturerAppended _)
  | .category (.manufacturerRedused _) | .category (.filtersClosed _ _)
  | .category (.addTapped _ _ _) | .category (.added _)
  | .category .addFailed | .sliderMoved _ => .isFalse And.right

/-- Any snapshots, the popover opened and closed any number of times between
them, and closed once more: every current item is shown exactly if all have
manufacturers of the first list with anything in it and costs that the slider
has carried along from there, through the costs of every list the popover was
opened over. This is so for any slider. -/
theorem hides_nothing_iff {l : List FiltersEvent}
    (hl : play (FilteredScreen.handle slider) Untouched l start = some s)
    (hclose : s.handle slider .popoverClosed = some s') :
    s'.HidesNothing ↔ ∀ item ∈ (l.foldl Catalogs.next .start).current,
      (l.foldl Catalogs.next .start).Covers slider item :=
  ((recalls_of_play recalls_start hl).popoverClosed hclose).2

instance (s : FilteredScreen) : Decidable s.HidesNothing :=
  inferInstanceAs (Decidable (∀ items ∈ s.category.presenter.items,
    ∀ item ∈ items, ∃ shown ∈ s.category.presenter.shownItems, item ∈ shown))

open CategoryScreen in
/-- A visit to two items, another to what a snapshot has left of them. -/
theorem hides_nothing_shop :
    ∃ s s', play (FilteredScreen.handle clamped) Untouched
        [.category (.snapshot [shopCamera, shopTripod]), .popoverTapped,
          .popoverClosed, .category (.snapshot [shopTripod]), .popoverTapped]
        start = some s ∧
      s.handle clamped .popoverClosed = some s' ∧ s'.HidesNothing := by
  have hclose : ((play (FilteredScreen.handle clamped) Untouched
      [.category (.snapshot [shopCamera, shopTripod]), .popoverTapped,
        .popoverClosed, .category (.snapshot [shopTripod]), .popoverTapped]
      start).bind fun s => s.handle clamped .popoverClosed).isSome = true := by
    decide +kernel
  obtain ⟨s', hs'⟩ := Option.isSome_iff_exists.mp hclose
  obtain ⟨s, hs, hs'⟩ := Option.bind_eq_some_iff.mp hs'
  refine ⟨s, s', hs, hs', (hides_nothing_iff hs hs').mpr ?_⟩
  decide +kernel

open CategoryScreen in
/-- A tripod comes in after the first snapshot, and a camera dearer than the
first: neither is left by a popover opened and closed again. -/
theorem hides_nothing_fails :
    (∃ s, Run (FilteredScreen.handle clamped) Untouched start s ∧
      s.category.presenter.items = some [shopCamera, shopTripod] ∧
      ∃ s' ∈ s.handle clamped .popoverClosed, ¬ s'.HidesNothing) ∧
    ∃ s, Run (FilteredScreen.handle clamped) Untouched start s ∧
      s.category.presenter.items =
        some [shopCamera, { shopCamera with ID := "lens", cost := 700 }] ∧
      ∃ s' ∈ s.handle clamped .popoverClosed, ¬ s'.HidesNothing := by
  refine ⟨?_, ?_⟩
  · exact exists_run_of_play
      [.category (.snapshot [shopCamera]),
        .category (.snapshot [shopCamera, shopTripod]), .popoverTapped]
      (by decide +kernel)
  · exact exists_run_of_play
      [.category (.snapshot [shopCamera]),
        .category (.snapshot
          [shopCamera, { shopCamera with ID := "lens", cost := 700 }]),
        .popoverTapped] (by decide +kernel)

end FilteredScreen

end PhoRent
