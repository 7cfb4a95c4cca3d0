import Mathlib.Tactic.Linarith
import PhoRent.App.FiltersPage
import PhoRent.Lib.Simulation
import PhoRent.Proofs.FiltersPopover

/-!
# The slider and the check boxes

The page with all of its popover does what the page with any slider and with
bare taps on names does: a drag is a selection, and a tap on a cell is one on
its name. What the flags promise there they promise here.

Two things can be said beyond that. The slider never lets go of the ends that
matter, but what it was given may have its values the wrong way round, when the
costs have moved away from the range left by an earlier visit. A drag of a
handle mends what is wrong on its own side. And a check box shows whether the
manufacturer's cell has been tapped an even number of times, however often the
cell has been out of sight or the popover closed in between.
-/

namespace PhoRent

open Machine

/-! ## The slider -/

namespace RangeSeekSlider

variable {s s' : RangeSeekSlider}

structure SameLine (s s' : RangeSeekSlider) : Prop where
  minValue : s'.minValue = s.minValue
  maxValue : s'.maxValue = s.maxValue
  handleTracking : s'.handleTracking = s.handleTracking

theorem keepDistance_sameLine (s : RangeSeekSlider) :
    s.SameLine s.keepDistance := by
  rw [keepDistance]
  split
  · split <;> exact ⟨rfl, rfl, rfl⟩
  · exact ⟨rfl, rfl, rfl⟩

theorem raiseMinimum_sameLine (s : RangeSeekSlider) :
    s.SameLine s.raiseMinimum := by
  rw [raiseMinimum]
  split <;> exact ⟨rfl, rfl, rfl⟩

theorem lowerMaximum_sameLine (s : RangeSeekSlider) :
    s.SameLine s.lowerMaximum := by
  rw [lowerMaximum]
  split <;> exact ⟨rfl, rfl, rfl⟩

theorem refresh_sameLine (s : RangeSeekSlider) : s.SameLine s.refresh := by
  obtain ⟨hmin, hmax, htrack⟩ := keepDistance_sameLine s
  obtain ⟨hmin', hmax', htrack'⟩ := raiseMinimum_sameLine s.keepDistance
  obtain ⟨hmin'', hmax'', htrack''⟩ :=
    lowerMaximum_sameLine s.keepDistance.raiseMinimum
  exact ⟨hmin''.trans (hmin'.trans hmin), hmax''.trans (hmax'.trans hmax),
    htrack''.trans (htrack'.trans htrack)⟩

theorem setSelectedMinValue_eq (s : RangeSeekSlider) (v : ℚ) :
    s.setSelectedMinValue v =
      { s with selectedMinValue := max v s.minValue } := by
  rw [setSelectedMinValue]
  split
  · next h => rw [max_eq_right h.le]
  · next h => rw [max_eq_left (not_lt.mp h)]

theorem setSelectedMaxValue_eq (s : RangeSeekSlider) (v : ℚ) :
    s.setSelectedMaxValue v =
      { s with selectedMaxValue := min v s.maxValue } := by
  rw [setSelectedMaxValue]
  split
  · next h => rw [min_eq_right h.le]
  · next h => rw [min_eq_left (not_lt.mp h)]

/-- The ends are the right way round, and neither value is beyond its own. -/
structure Fits (s : RangeSeekSlider) : Prop where
  ends : s.minValue ≤ s.maxValue
  lower : s.minValue ≤ s.selectedMinValue
  upper : s.selectedMaxValue ≤ s.maxValue

theorem Fits.refresh (h : s.Fits) (hkeep : s.keepDistance = s) :
    s.refresh = s := by
  rw [RangeSeekSlider.refresh, hkeep, raiseMinimum, if_neg (not_lt.mpr h.lower),
    lowerMaximum, if_neg (not_lt.mpr h.upper)]

/-- The lower value goes no further than the upper one, unless that is below
the lower end. -/
theorem Fits.continueTracking_left (h : s.Fits)
    (htrack : s.handleTracking = .left) (p : ℚ) :
    s.continueTracking p = { s with
      selectedMinValue :=
        max (min (p * (s.maxValue - s.minValue) + s.minValue)
          s.selectedMaxValue) s.minValue } := by
  obtain ⟨lo, hi, a, b, track⟩ := s
  obtain rfl : track = .left := htrack
  rw [continueTracking]
  simp only [setSelectedMinValue_eq]
  generalize p * (hi - lo) + lo = v
  refine Fits.refresh (s := ⟨lo, hi, max (min v b) lo, b, .left⟩)
    ⟨h.ends, le_max_right _ _, h.upper⟩ ?_
  rw [keepDistance]
  split
  · next hlt =>
      -- only the lower end is above the upper value
      have hend : b < lo := by
        by_contra hge
        have hle := max_le (min_le_right v b) (not_lt.mp hge)
        simp only [minDistance] at hlt
        linarith only [hle, hlt]
      simp only [setSelectedMinValue_eq, minDistance, sub_zero,
        max_eq_right hend.le, max_eq_right ((min_le_right v b).trans hend.le)]
  · rfl

theorem Fits.continueTracking_right (h : s.Fits)
    (htrack : s.handleTracking = .right) (p : ℚ) :
    s.continueTracking p = { s with
      selectedMaxValue :=
        min (max (p * (s.maxValue - s.minValue) + s.minValue)
          s.selectedMinValue) s.maxValue } := by
  obtain ⟨lo, hi, a, b, track⟩ := s
  obtain rfl : track = .right := htrack
  rw [continueTracking]
  simp only [setSelectedMaxValue_eq]
  generalize p * (hi - lo) + lo = v
  refine Fits.refresh (s := ⟨lo, hi, a, min (max v a) hi, .right⟩)
    ⟨h.ends, h.lower, min_le_right _ _⟩ ?_
  rw [keepDistance]
  split
  · next hlt =>
      have hend : hi < a := by
        by_contra hge
        have hle := le_min (le_max_right v a) (not_lt.mp hge)
        simp only [minDistance] at hlt
        linarith only [hle, hlt]
      simp only [setSelectedMaxValue_eq, minDistance, add_zero,
        min_eq_right hend.le, min_eq_right (hend.le.trans (le_max_right v a))]
  · rfl

/-- What the popover makes of the slider: its ends, and what it was given, cut
off at the lower end and at the upper one. -/
theorem setupView_eq (presenter : CategoryPresenter) :
    FiltersViewController.setupView presenter =
      presenter.getMinCost.bind fun minCost =>
        presenter.getMaxCost.map fun maxCost =>
          ⟨minCost, maxCost,
            max (presenter.costRange.minCost.getD minCost) minCost,
            min (presenter.costRange.maxCost.getD maxCost) maxCost, .none⟩ := by
  rw [FiltersViewController.setupView]
  refine Option.bind_congr fun minCost _ => ?_
  rw [Option.map_eq_bind]
  refine Option.bind_congr fun maxCost _ => ?_
  obtain ⟨hmin, -, htrack⟩ := refresh_sameLine
    { init with minValue := (minCost : ℚ) }
  obtain ⟨hmin', hmax', htrack'⟩ := refresh_sameLine
    { init.setMinValue minCost with maxValue := (maxCost : ℚ) }
  have hlo : ((init.setMinValue minCost).setMaxValue maxCost).minValue =
      minCost := hmin'.trans hmin
  have hhi : ((init.setMinValue minCost).setMaxValue maxCost).maxValue =
      maxCost := hmax'
  have ht : ((init.setMinValue minCost).setMaxValue maxCost).handleTracking =
      .none := htrack'.trans htrack
  simp only [setSelectedMinValue_eq, setSelectedMaxValue_eq, hlo, hhi, ht,
    Function.comp_apply]
  rfl

end RangeSeekSlider

/-- The handles moved in a visit, and the one that is touched. -/
structure Drags where
  tracking : HandleTracking
  moved : List HandleTracking

namespace Drags

def start : Drags := ⟨.none, []⟩

def next (self : Drags) : FiltersPageEvent → Drags
  | .beginTracking handle => { self with tracking := handle }
  | .continueTracking _ =>
      if self.tracking = .none then self
      else { self with moved := self.moved ++ [self.tracking] }
  | .endTracking => { self with tracking := .none }
  | _ => self

end Drags

namespace RangeSeekSlider

variable {given ends : Bounds} {s : RangeSeekSlider} {d : Drags}

/-- The slider after some drags, by the ends it has and what it was given. -/
structure Dragged (given ends : Bounds) (s : RangeSeekSlider) (d : Drags) :
    Prop where
  fits : s.Fits
  minValue : s.minValue = ends.minValue
  maxValue : s.maxValue = ends.maxValue
  tracking : s.handleTracking = d.tracking
  before : d.moved = [] →
    s.selectedMinValue = max given.minValue ends.minValue ∧
      s.selectedMaxValue = min given.maxValue ends.maxValue
  lower : s.selectedMinValue ≤ ends.maxValue ↔
    given.minValue ≤ ends.maxValue ∨ .left ∈ d.moved
  upper : ends.minValue ≤ s.selectedMaxValue ↔
    ends.minValue ≤ given.maxValue ∨ .right ∈ d.moved
  after : d.moved ≠ [] → (s.selectedMinValue ≤ s.selectedMaxValue ↔
    s.selectedMinValue ≤ ends.maxValue ∧ ends.minValue ≤ s.selectedMaxValue)

theorem dragged_start (h : ends.minValue ≤ ends.maxValue) :
    Dragged given ends ⟨ends.minValue, ends.maxValue,
      max given.minValue ends.minValue, min given.maxValue ends.maxValue,
      .none⟩ .start where
  fits := ⟨h, le_max_right _ _, min_le_right _ _⟩
  minValue := rfl
  maxValue := rfl
  tracking := rfl
  before _ := ⟨rfl, rfl⟩
  lower := by simp [Drags.start, h]
  upper := by simp [Drags.start, h]
  after h := absurd rfl h

/-- A drag mends its own side, and leaves the other as it is. -/
theorem Dragged.continueTracking (h : s.Dragged given ends d) (p : ℚ) :
    (s.continueTracking p).Dragged given ends
      (d.next (.continueTracking p)) := by
  have htrack := h.tracking
  have hends : s.minValue ≤ s.maxValue := h.fits.ends
  rw [h.minValue, h.maxValue] at hends
  have hupper : s.selectedMaxValue ≤ ends.maxValue :=
    h.maxValue ▸ h.fits.upper
  have hlower : ends.minValue ≤ s.selectedMinValue :=
    h.minValue ▸ h.fits.lower
  rw [Drags.next]
  split
  · next hnone =>
      rw [RangeSeekSlider.continueTracking, htrack.trans hnone]
      exact h
  · next hsome =>
      cases hd : d.tracking with
      | none => exact absurd hd hsome
      | left =>
          rw [h.fits.continueTracking_left (htrack.trans hd)]
          have hle : max (min (p * (s.maxValue - s.minValue) + s.minValue)
              s.selectedMaxValue) s.minValue ≤ ends.maxValue := by
            rw [h.minValue]
            exact max_le ((min_le_right _ _).trans hupper) hends
          refine ⟨⟨h.fits.ends, le_max_right _ _, h.fits.upper⟩, h.minValue,
            h.maxValue, htrack.trans hd, ?_, ?_, ?_, fun _ => ?_⟩
          · intro hnil
            exact absurd hnil (List.append_ne_nil_of_right_ne_nil _
              (List.cons_ne_nil _ _))
          · exact iff_of_true hle (Or.inr (by simp))
          · simpa using h.upper
          · rw [and_iff_right hle]
            refine max_le_iff.trans ?_
            rw [h.minValue]
            exact and_iff_right (min_le_right _ _)
      | right =>
          rw [h.fits.continueTracking_right (htrack.trans hd)]
          have hle : ends.minValue ≤
              min (max (p * (s.maxValue - s.minValue) + s.minValue)
                s.selectedMinValue) s.maxValue := by
            rw [h.maxValue]
            exact le_min (hlower.trans (le_max_right _ _)) hends
          refine ⟨⟨h.fits.ends, h.fits.lower, min_le_right _ _⟩, h.minValue,
            h.maxValue, htrack.trans hd, ?_, ?_, ?_, fun _ => ?_⟩
          · intro hnil
            exact absurd hnil (List.append_ne_nil_of_right_ne_nil _
              (List.cons_ne_nil _ _))
          · simpa using h.lower
          · exact iff_of_true hle (Or.inr (by simp))
          · rw [and_iff_left hle]
            refine le_min_iff.trans ?_
            rw [h.maxValue]
            exact and_iff_right (le_max_right _ _)

/-- After any drags, whether the values are the right way round. -/
theorem Dragged.ordered_iff (h : s.Dragged given ends d) :
    s.selectedMinValue ≤ s.selectedMaxValue ↔
      if d.moved = [] then
        max given.minValue ends.minValue ≤ min given.maxValue ends.maxValue
      else
        (given.minValue ≤ ends.maxValue ∨ .left ∈ d.moved) ∧
          (ends.minValue ≤ given.maxValue ∨ .right ∈ d.moved) := by
  split
  · next hnil =>
      obtain ⟨hmin, hmax⟩ := h.before hnil
      rw [hmin, hmax]
  · next hmoved => rw [h.after hmoved, h.lower, h.upper]

end RangeSeekSlider

/-! ## With any slider, and with bare names -/

namespace FiltersViewController

variable {presenter : CategoryPresenter}

def toView (self : FiltersViewController) : FiltersView :=
  ⟨⟨self.costRangeSlider.selectedMinValue,
    self.costRangeSlider.selectedMaxValue⟩, self.manufacturersArray, self.rows⟩

theorem toView_viewDidLoad :
    (viewDidLoad presenter).map toView =
      FiltersView.viewDidLoad RangeSeekSlider.selected presenter := by
  rw [viewDidLoad, RangeSeekSlider.setupView_eq, FiltersView.viewDidLoad,
    FiltersView.setupView]
  cases presenter.getMinCost with
  | none => rfl
  | some minCost =>
      cases presenter.getMaxCost with
      | none => rfl
      | some maxCost => rfl

end FiltersViewController

namespace FiltersPage

variable {s s' : FiltersPage} {e : FiltersPageEvent}

def toScreen (self : FiltersPage) : FilteredScreen :=
  ⟨self.category, self.filters.map FiltersViewController.toView⟩

theorem toScreen_filters_ne_none (h : s.filters.isSome) :
    s.toScreen.filters ≠ none := by
  obtain ⟨filters, hfilters⟩ := Option.isSome_iff_exists.mp h
  rw [toScreen, hfilters]
  exact Option.some_ne_none _

abbrev ScreenRun : FilteredScreen → FilteredScreen → Prop :=
  Run (FilteredScreen.handle RangeSeekSlider.selected) FilteredScreen.Possible

theorem ScreenRun.one {t t' : FilteredScreen} (e : FiltersEvent)
    (hok : t.Possible e) (h : t.handle RangeSeekSlider.selected e = some t') :
    ScreenRun t t' := .single ⟨e, hok, h⟩

theorem screenRun_of_toView {filters filters' : FiltersViewController}
    (hfilters : s.filters = some filters)
    (h : filters'.toView = filters.toView) :
    ScreenRun s.toScreen (toScreen ⟨s.category, some filters'⟩) := by
  rw [toScreen, toScreen, hfilters, Option.map_some, Option.map_some, h]

theorem showFiltersPopover_toScreen (s : FiltersPage) :
    s.showFiltersPopover.map toScreen =
      s.toScreen.showFiltersPopover RangeSeekSlider.selected := by
  rw [showFiltersPopover, FilteredScreen.showFiltersPopover]
  obtain ⟨category, filters⟩ := s
  cases filters with
  | some filters => rfl
  | none =>
      rw [toScreen, ← FiltersViewController.toView_viewDidLoad]
      by_cases h : category.view.filtersAreAvialable = true
      · rw [if_pos ⟨rfl, h⟩, if_pos ⟨rfl, h⟩, Option.map_map, Option.map_map]
        rfl
      · rw [if_neg fun hopen => h hopen.2, if_neg fun hopen => h hopen.2]
        rfl

/-- The cells do not show there, and a drag is a selection. -/
theorem screenRun_of_handle (hok : s.Possible e) (hs : s.handle e = some s') :
    ScreenRun s.toScreen s'.toScreen := by
  cases e with
  | category e =>
      obtain ⟨category, hcategory, rfl⟩ := Option.map_eq_some_iff.mp hs
      refine .one (.category e) ?_ (by
        rw [FilteredScreen.handle, toScreen, hcategory]
        rfl)
      cases e with
      | manufacturerAppended | manufacturerRedused | filtersClosed =>
          exact hok.elim
      | _ => exact trivial
  | popoverTapped =>
      refine .one .popoverTapped trivial ?_
      rw [FilteredScreen.handle, ← showFiltersPopover_toScreen]
      exact congrArg (Option.map toScreen) hs
  | rowsAsked =>
      obtain ⟨filters, hfilters, rfl⟩ := Option.map_eq_some_iff.mp hs
      refine .one .rowsAsked (toScreen_filters_ne_none hok) ?_
      rw [FilteredScreen.handle, toScreen, hfilters]
      rfl
  | cellAsked row =>
      obtain ⟨filters, hfilters, hs⟩ := Option.bind_eq_some_iff.mp hs
      obtain ⟨filters', hcell, rfl⟩ := Option.map_eq_some_iff.mp hs
      obtain ⟨name, hname, rfl⟩ := Option.map_eq_some_iff.mp hcell
      exact screenRun_of_toView hfilters rfl
  | cellGone row =>
      obtain ⟨filters, hfilters, rfl⟩ := Option.map_eq_some_iff.mp hs
      exact screenRun_of_toView hfilters rfl
  | cellTapped row =>
      obtain ⟨filters, hfilters, hs⟩ := Option.bind_eq_some_iff.mp hs
      obtain ⟨cell, hcell, hs⟩ := Option.bind_eq_some_iff.mp hs
      obtain ⟨category, hcategory, rfl⟩ := Option.map_eq_some_iff.mp hs
      have hopen : s.toScreen.filters ≠ none :=
        toScreen_filters_ne_none (by rw [hfilters]; rfl)
      refine .one (.category cell.told) ?_ (by
        rw [FilteredScreen.handle, toScreen, hcategory, hfilters]
        rfl)
      rw [ManufacturerTableViewCell.told]
      split <;> exact hopen
  | beginTracking side | endTracking =>
      obtain ⟨filters, hfilters, rfl⟩ := Option.map_eq_some_iff.mp hs
      exact screenRun_of_toView hfilters rfl
  | continueTracking p =>
      obtain ⟨filters, hfilters, rfl⟩ := Option.map_eq_some_iff.mp hs
      let slider := filters.costRangeSlider.continueTracking p
      refine .one (.sliderMoved ⟨slider.selectedMinValue,
        slider.selectedMaxValue⟩) (toScreen_filters_ne_none hok) ?_
      rw [FilteredScreen.handle, toScreen, hfilters]
      rfl
  | popoverClosed =>
      obtain ⟨filters, hfilters, hs⟩ := Option.bind_eq_some_iff.mp hs
      obtain ⟨category, hcategory, rfl⟩ := Option.map_eq_some_iff.mp hs
      refine .one .popoverClosed (toScreen_filters_ne_none hok) ?_
      rw [FilteredScreen.handle, toScreen, hfilters, Option.map_some,
        Option.bind_some]
      exact congrArg (Option.map _) hcategory

theorem sound : Simulation.Sound (Handles handle Possible)
    (Handles (FilteredScreen.handle RangeSeekSlider.selected)
      FilteredScreen.Possible) toScreen fun _ => True := by
  rintro s s' - ⟨e, hok, hs⟩
  exact ⟨trivial, screenRun_of_handle hok hs⟩

theorem coherent_of_run (h : Run handle Possible start s) :
    s.toScreen.Coherent :=
  FilteredScreen.coherent_of_run (sound.run h trivial).2

/-! ## The range -/

def Visiting (s : FiltersPage) (e : FiltersPageEvent) : Prop :=
  s.Possible e ∧ match e with
    | .popoverClosed => False
    | _ => True

instance (s : FiltersPage) : DecidablePred s.Visiting := fun e =>
  match e with
  | .popoverClosed => .isFalse And.right
  | .category _ | .popoverTapped | .rowsAsked | .cellAsked _ | .cellGone _
  | .cellTapped _ | .beginTracking _ | .continueTracking _ | .endTracking =>
      decidable_of_iff (s.Possible _) (and_iff_left trivial).symm

def Visited (given ends : Bounds) (s : FiltersPage) (d : Drags) : Prop :=
  ∃ filters, s.filters = some filters ∧
    filters.costRangeSlider.Dragged given ends d

theorem Visited.handle {given ends : Bounds} {d : Drags}
    (h : s.Visited given ends d) (hok : s.Visiting e)
    (hs : s.handle e = some s') : s'.Visited given ends (d.next e) := by
  obtain ⟨filters, hfilters, hdragged⟩ := h
  cases e with
  | category e =>
      obtain ⟨category, -, rfl⟩ := Option.map_eq_some_iff.mp hs
      exact ⟨filters, hfilters, hdragged⟩
  | popoverTapped =>
      rw [FiltersPage.handle, showFiltersPopover, if_neg] at hs
      · obtain rfl := Option.some.inj hs
        exact ⟨filters, hfilters, hdragged⟩
      · rw [hfilters]
        exact fun hopen => Bool.false_ne_true hopen.1
  | rowsAsked | cellGone row =>
      rw [FiltersPage.handle, hfilters] at hs
      obtain rfl := Option.some.inj hs
      exact ⟨_, rfl, hdragged⟩
  | cellAsked row =>
      rw [FiltersPage.handle, hfilters, Option.bind_some] at hs
      obtain ⟨filters', hcell, rfl⟩ := Option.map_eq_some_iff.mp hs
      obtain ⟨name, -, rfl⟩ := Option.map_eq_some_iff.mp hcell
      exact ⟨_, rfl, hdragged⟩
  | cellTapped row =>
      rw [FiltersPage.handle, hfilters, Option.bind_some] at hs
      obtain ⟨cell, -, hs⟩ := Option.bind_eq_some_iff.mp hs
      obtain ⟨category, -, rfl⟩ := Option.map_eq_some_iff.mp hs
      exact ⟨_, rfl, hdragged⟩
  | beginTracking side | endTracking =>
      rw [FiltersPage.handle, slide, hfilters] at hs
      obtain rfl := Option.some.inj hs
      exact ⟨_, rfl,
        ⟨hdragged.fits.ends, hdragged.fits.lower, hdragged.fits.upper⟩,
        hdragged.minValue, hdragged.maxValue, rfl, hdragged.before,
        hdragged.lower, hdragged.upper, hdragged.after⟩
  | continueTracking p =>
      rw [FiltersPage.handle, slide, hfilters] at hs
      obtain rfl := Option.some.inj hs
      exact ⟨_, rfl, hdragged.continueTracking p⟩
  | popoverClosed => exact hok.2.elim

/-- The popover has been opened over some costs. -/
theorem visited_of_opened (h : s.toScreen.Coherent) (hclosed : s.filters.isNone)
    (hopen : s.handle .popoverTapped = some s') (hsome : s'.filters.isSome) :
    ∃ (given : Bounds) (minCost maxCost : ℤ),
      s.category.presenter.costRange =
        ⟨some given.minValue, some given.maxValue⟩ ∧
      s.category.presenter.getMinCost = some minCost ∧
      s.category.presenter.getMaxCost = some maxCost ∧
      s'.Visited given ⟨minCost, maxCost⟩ .start := by
  rw [FiltersPage.handle, showFiltersPopover] at hopen
  split at hopen
  · next havailable =>
      obtain ⟨filters, hfilters, rfl⟩ := Option.map_eq_some_iff.mp hopen
      obtain ⟨slider, hslider, hfilters⟩ := Option.bind_eq_some_iff.mp hfilters
      obtain rfl := Option.some.inj hfilters
      rw [RangeSeekSlider.setupView_eq] at hslider
      obtain ⟨minCost, hmin, hslider⟩ := Option.bind_eq_some_iff.mp hslider
      obtain ⟨maxCost, hmax, rfl⟩ := Option.map_eq_some_iff.mp hslider
      have hupdated : s.category.view.updated = true :=
        h.updated_of (Or.inr (Or.inr (Or.inl havailable.2)))
      obtain ⟨lower, upper, hrange⟩ := h.range hupdated
      have hrange : s.category.presenter.costRange =
          ⟨some lower, some upper⟩ := hrange
      refine ⟨⟨lower, upper⟩, minCost, maxCost, hrange, hmin, hmax, _, rfl, ?_⟩
      rw [hrange]
      have hstart : ∀ h, RangeSeekSlider.Dragged ⟨lower, upper⟩
          ⟨minCost, maxCost⟩ _ .start := RangeSeekSlider.dragged_start
      refine hstart (Int.cast_le.mpr ?_)
      -- the lowest cost is one of those the highest is above
      obtain ⟨items, hitems, hmin⟩ := Option.bind_eq_some_iff.mp hmin
      rw [CategoryPresenter.getMaxCost, hitems, Option.bind_some] at hmax
      exact (List.max?_eq_some_iff.mp hmax).2 _ (List.min?_mem hmin)
  · obtain rfl := Option.some.inj hopen
    rw [Option.isNone_iff_eq_none.mp hclosed] at hsome
    cases hsome

/-- Closing shows what is checked and within the slider's selection. -/
theorem popoverClosed_of_updated {filters : FiltersViewController}
    (hupdated : s.category.view.updated = true)
    (hfilters : s.filters = some filters)
    (hs : s.handle .popoverClosed = some s') :
    ∃ shown : List Item,
      (∀ item, item ∈ shown ↔ item ∈ s.category.presenter.items.getD [] ∧
        item.manufacturer ∈ s.category.presenter.checkManufacturers ∧
        filters.costRangeSlider.selectedMinValue ≤ item.cost ∧
        item.cost ≤ filters.costRangeSlider.selectedMaxValue) ∧
      ∃ available, s' = ⟨{ s.category with
        presenter := { s.category.presenter with
          costRange := ⟨some filters.costRangeSlider.selectedMinValue,
            some filters.costRangeSlider.selectedMaxValue⟩
          shownItems := some shown }
        view := ⟨some shown, true, available⟩ }, none⟩ := by
  rw [handle, hfilters, Option.bind_some, viewWillDisappear] at hs
  obtain ⟨shown, hshown, hclosed⟩ := CategoryScreen.filtersClosed_of_updated
    hupdated filters.costRangeSlider.selectedMinValue
    filters.costRangeSlider.selectedMaxValue
  rw [hclosed] at hs
  obtain rfl := Option.some.inj hs
  refine ⟨shown, fun item => (hshown item).trans ?_, _, rfl⟩
  simp only [CategoryPresenter.Admits, CategoryPresenter.setCostRange,
    Option.mem_some_iff, exists_eq_left']

/-- A visit to the filters, in any run. The range that closing leaves is never
beyond the costs the popover was opened over. Its ends are the right way round,
without a drag, if what was left of the range before and these costs is; after
some drags, if each end that was out of reach has been mended, the lower one by
a drag of the left handle and the upper one by a drag of the right. Otherwise
nothing at all is shown. -/
theorem range_of_visit {s₁ s₂ s₃ : FiltersPage} {l : List FiltersPageEvent}
    (h : Run handle Possible start s) (hclosed : s.filters.isNone)
    (hopen : s.handle .popoverTapped = some s₁) (hsome : s₁.filters.isSome)
    (hl : play handle Visiting l s₁ = some s₂)
    (hclose : s₂.handle .popoverClosed = some s₃) :
    ∃ (given left : Bounds) (minCost maxCost : ℤ),
      s.category.presenter.costRange =
        ⟨some given.minValue, some given.maxValue⟩ ∧
      s.category.presenter.getMinCost = some minCost ∧
      s.category.presenter.getMaxCost = some maxCost ∧
      s₃.category.presenter.costRange =
        ⟨some left.minValue, some left.maxValue⟩ ∧
      minCost ≤ left.minValue ∧ left.maxValue ≤ maxCost ∧
      (left.minValue ≤ left.maxValue ↔
        if (l.foldl Drags.next .start).moved = [] then
          max given.minValue minCost ≤ min given.maxValue maxCost
        else
          (given.minValue ≤ maxCost ∨
            .left ∈ (l.foldl Drags.next .start).moved) ∧
          (minCost ≤ given.maxValue ∨
            .right ∈ (l.foldl Drags.next .start).moved)) ∧
      (left.maxValue < left.minValue → s₃.category.view.items = some []) := by
  obtain ⟨given, minCost, maxCost, hgiven, hmin, hmax, hvisited⟩ :=
    visited_of_opened (coherent_of_run h) hclosed hopen hsome
  obtain ⟨filters, hfilters, hdragged⟩ : s₂.Visited given ⟨minCost, maxCost⟩
      (l.foldl Drags.next .start) := by
    refine play_foldl ?_ hl hvisited
    exact fun _ _ _ _ hv hok hs => hv.handle hok hs
  have hrun : Run handle Possible start s₂ :=
    (h.tail ⟨.popoverTapped, trivial, hopen⟩).trans
      ((play_run hl).mono fun _ _ hok => hok.1)
  have hupdated : s₂.category.view.updated = true :=
    (coherent_of_run hrun).updated_of (Or.inr (Or.inr (Or.inr
      (toScreen_filters_ne_none (by rw [hfilters]; rfl)))))
  obtain ⟨shown, hshown, available, rfl⟩ :=
    popoverClosed_of_updated hupdated hfilters hclose
  refine ⟨given, ⟨_, _⟩, minCost, maxCost, hgiven, hmin, hmax, rfl,
    hdragged.minValue.symm.le.trans hdragged.fits.lower,
    hdragged.fits.upper.trans hdragged.maxValue.le, hdragged.ordered_iff,
    fun hlt => ?_⟩
  refine congrArg some (List.eq_nil_iff_forall_not_mem.mpr fun item hitem => ?_)
  obtain ⟨-, -, hlower, hupper⟩ := (hshown item).mp hitem
  exact absurd (hlower.trans hupper) (not_le.mpr hlt)

open CategoryScreen in
/-- The camera goes and a tripod comes, at a cost the range left by a visit
does not reach. Both handles are dragged. -/
theorem range_of_visit_tripod :
    ∃ s s₁ s₂ s₃, Run handle Possible start s ∧
      s.handle .popoverTapped = some s₁ ∧
      play handle Visiting
        [.beginTracking .right, .continueTracking (3 / 4), .endTracking,
          .beginTracking .left, .continueTracking (1 / 2), .endTracking]
        s₁ = some s₂ ∧
      s₂.handle .popoverClosed = some s₃ ∧
      ∃ left : Bounds, s₃.category.presenter.costRange =
        ⟨some left.minValue, some left.maxValue⟩ ∧
        left.minValue ≤ left.maxValue := by
  obtain ⟨s, hrun, hclosed, hvisit⟩ : ∃ s, Run handle Possible start s ∧
      s.filters.isNone = true ∧
      ((s.handle .popoverTapped).any fun s₁ => s₁.filters.isSome &&
        ((play handle Visiting
          [.beginTracking .right, .continueTracking (3 / 4), .endTracking,
            .beginTracking .left, .continueTracking (1 / 2), .endTracking]
          s₁).bind fun s₂ => s₂.handle .popoverClosed).isSome) = true :=
    exists_run_of_play
      [.category (.snapshot [shopCamera]), .popoverTapped, .popoverClosed,
        .category (.snapshot [shopTripod])] (by decide +kernel)
  obtain ⟨s₁, hopen, hvisit⟩ := (Option.any_eq_true _ _).mp hvisit
  obtain ⟨hsome, hvisit⟩ := (Bool.and_eq_true _ _).mp hvisit
  obtain ⟨s₃, hvisit⟩ := Option.isSome_iff_exists.mp hvisit
  obtain ⟨s₂, hl, hclose⟩ := Option.bind_eq_some_iff.mp hvisit
  obtain ⟨given, left, minCost, maxCost, -, -, -, hleft, -, -, hordered, -⟩ :=
    range_of_visit hrun hclosed hopen hsome hl hclose
  refine ⟨s, s₁, s₂, s₃, hrun, hopen, hl, hclose, left, hleft,
    hordered.mpr ?_⟩
  exact ⟨Or.inr (by decide), Or.inr (by decide)⟩

end FiltersPage

end PhoRent
