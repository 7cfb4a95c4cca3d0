import Mathlib.Algebra.Group.Nat.Even
import PhoRent.Proofs.FiltersPage

/-!
# The check boxes

The manufacturers of the first list with anything in it are all there will ever
be, and they are all checked at first. From then on only the cells change that,
each for the name it has been given. Whether a name is checked is therefore a
matter of how often its cell has been tapped, and a picture that is set when a
cell comes into sight and turned over at every tap agrees with it.

Two cells in sight never have the same name: no name is in the array twice.
-/

namespace PhoRent

open Machine

/-- What a user may know: the manufacturers listed, and the names tapped. -/
structure Checklist where
  manufacturers : List String
  taps : List String

namespace Checklist

def start : Checklist := ⟨[], []⟩

def listed (items : List Item) : List String :=
  FiltersView.arrayOfSet (items.map Item.manufacturer).toFinset

def next (self : Checklist) : FiltersPageEvent → Checklist
  | .category (.snapshot items) =>
      if self.manufacturers = [] then
        { self with manufacturers := listed items }
      else self
  | .cellTapped row =>
      { self with taps := self.taps ++ self.manufacturers[row]?.toList }
  | _ => self

def Checked (self : Checklist) (name : String) : Prop :=
  name ∈ self.manufacturers ∧ Even (self.taps.count name)

variable {c : Checklist} {row : ℕ} {name name' : String}

theorem next_snapshot_start (items : List Item) :
    start.next (.category (.snapshot items)) = ⟨listed items, []⟩ := by
  rw [next]
  exact if_pos rfl

theorem listed_nil : listed [] = [] := Finset.sort_empty _

theorem next_cellTapped (h : c.manufacturers[row]? = some name) :
    c.next (.cellTapped row) = ⟨c.manufacturers, c.taps ++ [name]⟩ := by
  rw [next, h]
  rfl

/-- A tap turns its own name over. -/
theorem checked_tapped_self (h : c.manufacturers[row]? = some name) :
    (c.next (.cellTapped row)).Checked name ↔ ¬ c.Checked name := by
  have hmem : name ∈ c.manufacturers := List.mem_of_getElem? h
  rw [next_cellTapped h, Checked, Checked, and_iff_right hmem,
    and_iff_right hmem, List.count_append, List.count_singleton_self,
    Nat.even_add_one]

theorem checked_tapped_of_ne (h : c.manufacturers[row]? = some name)
    (hne : name' ≠ name) :
    (c.next (.cellTapped row)).Checked name' ↔ c.Checked name' := by
  rw [next_cellTapped h, Checked, Checked, List.count_append,
    List.count_singleton, if_neg (by simpa using hne.symm), add_zero]

end Checklist

namespace CategoryScreen

variable {s s' : CategoryScreen} {e : CategoryEvent}

structure KeepsNames (s s' : CategoryScreen) : Prop where
  manufacturers : s'.presenter.manufacturers = s.presenter.manufacturers
  checkManufacturers :
    s'.presenter.checkManufacturers = s.presenter.checkManufacturers
  updated : s'.view.updated = s.view.updated

theorem keepsNames_showItems {p : CategoryPresenter} {adds : List PendingAdd}
    (hupdated : s.view.updated = true)
    (hmanufacturers : p.manufacturers = s.presenter.manufacturers)
    (hcheck : p.checkManufacturers = s.presenter.checkManufacturers) :
    s.KeepsNames (showItems ⟨p, s.view, adds⟩) := by
  rw [showItems_of_updated (s := ⟨p, _, adds⟩) hupdated]
  exact ⟨hmanufacturers, hcheck, hupdated.symm⟩

theorem keepsNames_added {k : ℕ} (hadds : s.adds ≠ [] → s.view.updated = true)
    (hs : s.handle (.added k) = some s') : s.KeepsNames s' := by
  obtain ⟨add, hadd, hs⟩ := Option.bind_eq_some_iff.mp hs
  have hupdated : s.view.updated = true := by
    refine hadds fun hnil => ?_
    rw [hnil] at hadd
    cases hadd
  obtain ⟨p, hp, hs⟩ := Option.bind_eq_some_iff.mp hs
  obtain rfl := Option.some.inj hs
  obtain ⟨hmanufacturers, hcheck, -, -⟩ := FilteredScreen.lowerCount_kept hp
  exact keepsNames_showItems (p := { p with shownItems := p.items.map _ })
    hupdated hmanufacturers hcheck

theorem keepsNames_addTapped {row : ℕ} {count : ℤ} {isConnected : Bool}
    (hs : s.handle (.addTapped row count isConnected) = some s') :
    s.KeepsNames s' := by
  obtain ⟨item, -, rfl⟩ := Option.map_eq_some_iff.mp hs
  rw [addItemInBasket]
  split <;> exact ⟨rfl, rfl, rfl⟩

end CategoryScreen

theorem mem_arrayOfSet {names : Finset String} {name : String} :
    name ∈ FiltersView.arrayOfSet names ↔ name ∈ names := Finset.mem_sort _

theorem arrayOfSet_singleton (name : String) :
    FiltersView.arrayOfSet {name} = [name] := Finset.sort_singleton _ _

theorem containsManufacturer_iff {p : CategoryPresenter} {name : String} :
    p.containsManufacturer name = true ↔ name ∈ p.checkManufacturers := by
  rw [CategoryPresenter.containsManufacturer]
  split
  · next h => exact iff_of_true rfl h
  · next h => exact iff_of_false Bool.false_ne_true h

namespace FiltersPage

variable {s s' : FiltersPage} {c : Checklist} {e : FiltersPageEvent}

structure ShowsList (filters : FiltersViewController) (c : Checklist) :
    Prop where
  array : filters.manufacturersArray = c.manufacturers
  cells : ∀ row cell, filters.cells.get row = some cell →
    c.manufacturers[row]? = some cell.manufacturerNameLabel ∧
      (cell.isHidden = false ↔ c.Checked cell.manufacturerNameLabel)

structure Agrees (s : FiltersPage) (c : Checklist) : Prop where
  coherent : s.toScreen.Coherent
  listed : c.manufacturers =
    FiltersView.arrayOfSet s.category.presenter.manufacturers
  checked : ∀ name, name ∈ s.category.presenter.checkManufacturers ↔
    c.Checked name
  fresh : s.category.view.updated = false → c = .start
  filled : s.category.view.updated = true → c.manufacturers ≠ []
  shown : ∀ filters, s.filters = some filters → ShowsList filters c

theorem agrees_start : start.Agrees .start where
  coherent := FilteredScreen.coherent_start
  listed := Checklist.listed_nil.symm
  checked name := iff_of_false (Finset.notMem_empty name) fun h =>
    List.not_mem_nil h.1
  fresh _ := rfl
  filled h := by cases h
  shown _ h := by cases h

theorem Agrees.keeps (h : s.Agrees c) (hcoherent : s'.toScreen.Coherent)
    (hkeeps : s.category.KeepsNames s'.category)
    (hshown : ∀ filters, s'.filters = some filters → ShowsList filters c) :
    s'.Agrees c where
  coherent := hcoherent
  listed := by rw [hkeeps.manufacturers]; exact h.listed
  checked := by rw [hkeeps.checkManufacturers]; exact h.checked
  fresh := by rw [hkeeps.updated]; exact h.fresh
  filled := by rw [hkeeps.updated]; exact h.filled
  shown := hshown

theorem Agrees.updated_of_open {filters : FiltersViewController}
    (h : s.Agrees c) (hfilters : s.filters = some filters) :
    s.category.view.updated = true :=
  h.coherent.updated_of (Or.inr (Or.inr (Or.inr
    (toScreen_filters_ne_none (by rw [hfilters]; rfl)))))

/-- The first list with anything in it fills the checklist, and no other. -/
theorem Agrees.snapshot {items : List Item} (h : s.Agrees c)
    (hcoherent : FilteredScreen.Coherent
      (toScreen ⟨s.category.snapshot items, s.filters⟩)) :
    Agrees ⟨s.category.snapshot items, s.filters⟩
      (c.next (.category (.snapshot items))) := by
  cases hupdated : s.category.view.updated with
  | true =>
      rw [Checklist.next, if_neg (h.filled hupdated)]
      exact h.keeps hcoherent
        (CategoryScreen.keepsNames_showItems (p := { s.category.presenter with
          items := some items
          shownItems := some items }) hupdated rfl rfl) h.shown
  | false =>
      obtain rfl := h.fresh hupdated
      rcases CategoryScreen.snapshot_of_fresh hupdated items with
        ⟨rfl, hs⟩ | ⟨minCost, hmin, maxCost, -, hs⟩
      · rw [hs] at hcoherent ⊢
        rw [Checklist.next_snapshot_start, Checklist.listed_nil]
        exact h.keeps hcoherent ⟨rfl, rfl, rfl⟩ h.shown
      · rw [hs] at hcoherent ⊢
        rw [Checklist.next_snapshot_start]
        refine ⟨hcoherent, rfl, fun name => ?_, fun hfresh => ?_, fun _ => ?_,
          fun filters hfilters => ?_⟩
        · rw [Checklist.Checked, Checklist.listed, mem_arrayOfSet]
          exact (and_iff_left Even.zero).symm
        · cases hfresh
        · obtain ⟨item, hitem⟩ := List.exists_mem_of_ne_nil items fun hnil => by
            rw [hnil] at hmin
            cases hmin
          have hmem : item.manufacturer ∈ Checklist.listed items :=
            mem_arrayOfSet.mpr (List.mem_toFinset.mpr
              (List.mem_map_of_mem hitem))
          exact List.ne_nil_of_mem hmem
        · rw [h.updated_of_open hfilters] at hupdated
          cases hupdated

theorem Agrees.cellAsked {filters : FiltersViewController} {row : ℕ}
    {name : String} (h : s.Agrees c) (hfilters : s.filters = some filters)
    (hname : filters.manufacturersArray[row]? = some name) :
    ShowsList { filters with
      cells := filters.cells.put row
        (.setCheckbox s.category.presenter name) } c := by
  obtain ⟨harray, hcells⟩ := h.shown filters hfilters
  refine ⟨harray, fun row' cell' hget => ?_⟩
  rw [Keyed.Coll.get_put] at hget
  split at hget
  · next hrow =>
      obtain rfl := Option.some.inj hget
      refine ⟨hrow ▸ harray ▸ hname, ?_⟩
      rw [ManufacturerTableViewCell.setCheckbox, Bool.not_eq_false',
        containsManufacturer_iff]
      exact h.checked name
  · exact hcells row' cell' hget

theorem ShowsList.cellGone {filters : FiltersViewController}
    (h : ShowsList filters c) (row : ℕ) :
    ShowsList { filters with cells := filters.cells.erase row } c := by
  refine ⟨h.array, fun row' cell' hget => ?_⟩
  rw [Keyed.Coll.get_erase] at hget
  split at hget
  · cases hget
  · exact h.cells row' cell' hget

/-- What the presenter is told: the name is checked if it was not. -/
theorem told_spec {cell : ManufacturerTableViewCell}
    {category category' : CategoryScreen}
    (hs : category.handle cell.told = some category') :
    ∃ check : Finset String, category' = { category with
        presenter := { category.presenter with checkManufacturers := check } } ∧
      (cell.manufacturerNameLabel ∈ check ↔ cell.isHidden = true) ∧
      ∀ name, name ≠ cell.manufacturerNameLabel →
        (name ∈ check ↔ name ∈ category.presenter.checkManufacturers) := by
  obtain ⟨label, isHidden⟩ := cell
  cases isHidden with
  | true =>
      obtain rfl := Option.some.inj hs
      refine ⟨_, rfl, iff_of_true (Finset.mem_insert_self _ _) rfl,
        fun name hne => ?_⟩
      rw [Finset.mem_insert]
      exact or_iff_right hne
  | false =>
      obtain rfl := Option.some.inj hs
      refine ⟨_, rfl, iff_of_false (Finset.notMem_erase _ _)
        Bool.false_ne_true, fun name hne => ?_⟩
      rw [Finset.mem_erase]
      exact and_iff_right hne

/-- A tap turns over the picture, the name in the presenter's set and the
parity, and leaves the other names alone. -/
theorem Agrees.cellTapped {filters : FiltersViewController} {row : ℕ}
    {cell : ManufacturerTableViewCell} {category : CategoryScreen}
    (h : s.Agrees c) (hfilters : s.filters = some filters)
    (hget : filters.cells.get row = some cell)
    (hs : s.category.handle cell.told = some category)
    (hcoherent : FilteredScreen.Coherent (toScreen ⟨category, some {
      filters with cells := filters.cells.put row cell.tapped }⟩)) :
    Agrees ⟨category, some { filters with
      cells := filters.cells.put row cell.tapped }⟩
      (c.next (.cellTapped row)) := by
  obtain ⟨harray, hcells⟩ := h.shown filters hfilters
  obtain ⟨hrow, hhidden⟩ := hcells row cell hget
  obtain ⟨check, rfl, hself, hother⟩ := told_spec hs
  have hlist : (c.next (.cellTapped row)).manufacturers = c.manufacturers := by
    rw [Checklist.next_cellTapped hrow]
  have hupdated := h.updated_of_open hfilters
  have hturned : cell.isHidden = true ↔
      (c.next (.cellTapped row)).Checked cell.manufacturerNameLabel := by
    rw [Checklist.checked_tapped_self hrow, ← hhidden, Bool.not_eq_false]
  refine ⟨hcoherent, hlist.trans h.listed, fun name => ?_, fun hfresh => ?_,
    fun _ => ?_, fun filters' hfilters' => ?_⟩
  · by_cases hname : name = cell.manufacturerNameLabel
    · rw [hname]
      exact hself.trans hturned
    · rw [Checklist.checked_tapped_of_ne hrow hname]
      exact (hother name hname).trans (h.checked name)
  · rw [hupdated] at hfresh
    cases hfresh
  · rw [hlist]
    exact h.filled hupdated
  · obtain rfl := Option.some.inj hfilters'
    refine ⟨harray.trans hlist.symm, fun row' cell' hget' => ?_⟩
    rw [hlist]
    rw [Keyed.Coll.get_put] at hget'
    split at hget'
    · next hsame =>
        obtain rfl := Option.some.inj hget'
        refine ⟨hsame ▸ hrow, Iff.trans ?_ hturned⟩
        rw [ManufacturerTableViewCell.tapped, Bool.not_eq_false']
    · next hdiff =>
        obtain ⟨hrow', hhidden'⟩ := hcells row' cell' hget'
        refine ⟨hrow', ?_⟩
        have hne :
            cell'.manufacturerNameLabel ≠ cell.manufacturerNameLabel := by
          intro hname
          have hnodup : c.manufacturers.Nodup :=
            h.listed ▸ Finset.sort_nodup _ _
          have hlt : row' < c.manufacturers.length :=
            (List.getElem?_eq_some_iff.mp hrow').1
          exact hdiff ((List.getElem?_inj hlt hnodup).mp
            (hrow'.trans (hname ▸ hrow.symm)))
        rw [Checklist.checked_tapped_of_ne hrow hne]
        exact hhidden'

theorem Agrees.handle (h : s.Agrees c) (hok : s.Possible e)
    (hs : s.handle e = some s') : s'.Agrees (c.next e) := by
  have hcoherent : s'.toScreen.Coherent :=
    (screenRun_of_handle hok hs).invariant (fun _ _ _ h => h.handle) h.coherent
  cases e with
  | category e =>
      obtain ⟨category, hcategory, rfl⟩ := Option.map_eq_some_iff.mp hs
      cases e with
      | snapshot items =>
          obtain rfl := Option.some.inj hcategory
          exact h.snapshot hcoherent
      | snapshotFailed | addFailed =>
          obtain rfl := Option.some.inj hcategory
          exact h.keeps hcoherent ⟨rfl, rfl, rfl⟩ h.shown
      | manufacturerAppended | manufacturerRedused | filtersClosed =>
          exact hok.elim
      | addTapped row count isConnected =>
          exact h.keeps hcoherent
            (CategoryScreen.keepsNames_addTapped hcategory) h.shown
      | added k =>
          exact h.keeps hcoherent (CategoryScreen.keepsNames_added
            (fun hadds => h.coherent.updated_of (Or.inl hadds)) hcategory)
            h.shown
  | popoverTapped =>
      rw [FiltersPage.handle, showFiltersPopover] at hs
      split at hs
      · obtain ⟨filters, hfilters, rfl⟩ := Option.map_eq_some_iff.mp hs
        obtain ⟨slider, -, hfilters⟩ := Option.bind_eq_some_iff.mp hfilters
        obtain rfl := Option.some.inj hfilters
        refine h.keeps hcoherent ⟨rfl, rfl, rfl⟩ fun filters hfilters => ?_
        obtain rfl := Option.some.inj hfilters
        exact ⟨h.listed.symm, fun row cell hget => by cases hget⟩
      · obtain rfl := Option.some.inj hs
        exact h
  | cellAsked row =>
      obtain ⟨filters, hfilters, hs⟩ := Option.bind_eq_some_iff.mp hs
      obtain ⟨filters', hcell, rfl⟩ := Option.map_eq_some_iff.mp hs
      obtain ⟨name, hname, rfl⟩ := Option.map_eq_some_iff.mp hcell
      refine h.keeps hcoherent ⟨rfl, rfl, rfl⟩ fun filters' hfilters' => ?_
      obtain rfl := Option.some.inj hfilters'
      exact h.cellAsked hfilters hname
  | cellGone row =>
      obtain ⟨filters, hfilters, rfl⟩ := Option.map_eq_some_iff.mp hs
      refine h.keeps hcoherent ⟨rfl, rfl, rfl⟩ fun filters' hfilters' => ?_
      obtain rfl := Option.some.inj hfilters'
      exact (h.shown filters hfilters).cellGone row
  | cellTapped row =>
      obtain ⟨filters, hfilters, hs⟩ := Option.bind_eq_some_iff.mp hs
      obtain ⟨cell, hget, hs⟩ := Option.bind_eq_some_iff.mp hs
      obtain ⟨category, hcategory, rfl⟩ := Option.map_eq_some_iff.mp hs
      exact h.cellTapped hfilters hget hcategory hcoherent
  | rowsAsked | beginTracking side | continueTracking percentage
  | endTracking =>
      obtain ⟨filters, hfilters, rfl⟩ := Option.map_eq_some_iff.mp hs
      refine h.keeps hcoherent ⟨rfl, rfl, rfl⟩ fun filters' hfilters' => ?_
      obtain rfl := Option.some.inj hfilters'
      exact ⟨(h.shown filters hfilters).array, (h.shown filters hfilters).cells⟩
  | popoverClosed =>
      obtain ⟨filters, hfilters⟩ := Option.isSome_iff_exists.mp hok
      have hupdated := h.updated_of_open hfilters
      obtain ⟨shown, -, available, rfl⟩ :=
        popoverClosed_of_updated hupdated hfilters hs
      refine h.keeps hcoherent ⟨rfl, rfl, hupdated.symm⟩ fun _ hnone => ?_
      cases hnone

/-- Snapshots and adds, the popover opened and closed, its cells scrolled and
tapped and its slider dragged, in any order. The manufacturers in the popover
are those of the first list with anything in it; the check box of a cell in
sight is on if its manufacturer has been tapped an even number of times so far;
and closing shows those of the items whose manufacturer is listed and has been
tapped an even number of times, and whose cost is within the slider's
selection. -/
theorem checked_of_play {l : List FiltersPageEvent}
    (hl : play FiltersPage.handle Possible l start = some s) :
    (∀ filters, s.filters = some filters →
      ShowsList filters (l.foldl Checklist.next .start)) ∧
    ∀ s', s.handle .popoverClosed = some s' →
      ∃ filters shown, s.filters = some filters ∧
        s'.category.view.items = some shown ∧
        ∀ item, item ∈ shown ↔ item ∈ s.category.presenter.items.getD [] ∧
          (l.foldl Checklist.next .start).Checked item.manufacturer ∧
          filters.costRangeSlider.selectedMinValue ≤ item.cost ∧
          item.cost ≤ filters.costRangeSlider.selectedMaxValue := by
  have h : s.Agrees (l.foldl Checklist.next .start) := by
    refine play_foldl ?_ hl agrees_start
    exact fun _ _ _ _ h hok hs => h.handle hok hs
  refine ⟨h.shown, fun s' hclose => ?_⟩
  obtain ⟨filters, hfilters, -⟩ := Option.bind_eq_some_iff.mp hclose
  obtain ⟨shown, hshown, available, rfl⟩ :=
    popoverClosed_of_updated (h.updated_of_open hfilters) hfilters hclose
  refine ⟨filters, shown, hfilters, rfl, fun item => (hshown item).trans ?_⟩
  rw [h.checked]

theorem viewDidLoad_of_singleton {presenter : CategoryPresenter}
    {slider : RangeSeekSlider} {name : String}
    (hslider : FiltersViewController.setupView presenter = some slider)
    (hnames : presenter.manufacturers = {name}) :
    FiltersViewController.viewDidLoad presenter =
      some ⟨slider, [name], 0, .empty⟩ := by
  rw [FiltersViewController.viewDidLoad, hslider, hnames, arrayOfSet_singleton]
  rfl

open CategoryScreen

def canonTripod : Item := { shopTripod with manufacturer := "Canon" }

/-- The popover is opened and its one cell tapped; the cell goes out of sight,
comes back and is tapped again; and the slider is dragged to the middle. -/
def canonTapped : List FiltersPageEvent :=
  [.category (.snapshot [shopCamera, canonTripod]), .popoverTapped, .rowsAsked,
    .cellAsked 0, .cellTapped 0, .cellGone 0, .cellAsked 0, .cellTapped 0,
    .beginTracking .right, .continueTracking (1 / 2), .endTracking]

def canonOpened : FiltersPage where
  category := snapshot .start [shopCamera, canonTripod]
  filters := some ⟨⟨100, 500, 100, 500, .none⟩, ["Canon"], 0, .empty⟩

theorem play_canonTapped :
    play FiltersPage.handle Possible canonTapped start =
      play FiltersPage.handle Possible (canonTapped.drop 2) canonOpened := by
  have hopen : handle ⟨canonOpened.category, none⟩ .popoverTapped =
      some canonOpened := by
    have hslider : FiltersViewController.setupView
        canonOpened.category.presenter = some ⟨100, 500, 100, 500, .none⟩ := by
      decide +kernel
    have hnames : canonOpened.category.presenter.manufacturers = {"Canon"} := by
      decide +kernel
    rw [handle, showFiltersPopover, if_pos (by decide +kernel),
      viewDidLoad_of_singleton hslider hnames]
    rfl
  have hsnapshot :
      start.handle (.category (.snapshot [shopCamera, canonTripod])) =
        some ⟨canonOpened.category, none⟩ := rfl
  rw [canonTapped, play_cons trivial hsnapshot, play_cons trivial hopen]
  rfl

theorem checklist_canonTapped :
    canonTapped.foldl Checklist.next .start =
      ⟨["Canon"], ["Canon", "Canon"]⟩ := by
  have hlisted : Checklist.listed [shopCamera, canonTripod] = ["Canon"] :=
    arrayOfSet_singleton "Canon"
  rw [canonTapped, List.foldl_cons, Checklist.next_snapshot_start, hlisted]
  rfl

theorem checked_of_play_tripod :
    ∃ s s' filters cell,
      play FiltersPage.handle Possible canonTapped start = some s ∧
      s.filters = some filters ∧ filters.cells.get 0 = some cell ∧
      cell.isHidden = false ∧ s.handle .popoverClosed = some s' ∧
      ∃ shown, s'.category.view.items = some shown ∧
        canonTripod ∈ shown ∧ shopCamera ∉ shown := by
  have hplay : (play FiltersPage.handle Possible (canonTapped.drop 2)
      canonOpened).any (fun s => s.filters.any fun filters =>
        (filters.cells.get 0).any fun cell =>
          (s.handle .popoverClosed).isSome ∧
            cell.manufacturerNameLabel = "Canon" ∧
            s.category.presenter.items = some [shopCamera, canonTripod] ∧
            filters.costRangeSlider.selectedMinValue = 100 ∧
            filters.costRangeSlider.selectedMaxValue = 300) = true := by
    decide +kernel
  obtain ⟨s, hs, hplay⟩ := (Option.any_eq_true _ _).mp hplay
  obtain ⟨filters, hfilters, hplay⟩ := (Option.any_eq_true _ _).mp hplay
  obtain ⟨cell, hcell, hplay⟩ := (Option.any_eq_true _ _).mp hplay
  obtain ⟨hclose, hname, hitems, hmin, hmax⟩ := of_decide_eq_true hplay
  obtain ⟨s', hs'⟩ := Option.isSome_iff_exists.mp hclose
  obtain ⟨hshows, hclosing⟩ := checked_of_play (play_canonTapped.trans hs)
  obtain ⟨filters', shown, hfilters', hview, hshown⟩ := hclosing s' hs'
  obtain rfl : filters = filters' :=
    Option.some.inj (hfilters.symm.trans hfilters')
  rw [hitems, hmin, hmax, checklist_canonTapped] at hshown
  have hchecked : Checklist.Checked ⟨["Canon"], ["Canon", "Canon"]⟩ "Canon" :=
    ⟨List.mem_singleton_self _, even_two⟩
  refine ⟨s, s', filters, cell, play_canonTapped.trans hs, hfilters, hcell, ?_,
    hs', shown, hview, (hshown _).mpr ?_, fun hcamera => ?_⟩
  · have hcells := (hshows filters hfilters).cells 0 cell hcell
    rw [checklist_canonTapped, hname] at hcells
    exact hcells.2.mpr hchecked
  · exact ⟨by simp, hchecked, by norm_num [canonTripod, shopTripod]⟩
  · obtain ⟨-, -, -, hle⟩ := (hshown _).mp hcamera
    norm_num [shopCamera] at hle

end FiltersPage

end PhoRent
