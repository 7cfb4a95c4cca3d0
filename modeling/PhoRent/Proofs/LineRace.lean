import Mathlib.Algebra.Order.BigOperators.Group.Finset
import PhoRent.Functions.Play
import PhoRent.Proofs.Positions

/-!
# Many adds to one line

An add looks for a line of the item's name and then creates one or writes a
new count to it, as the case was when it looked. Let one user's calls overlap
on an item: as long as a line is only created where there is none, and a count
only written over the count that was seen, there is one line and it grows by
what was asked for. Otherwise there can be two lines, or a count gets lost.
-/

namespace PhoRent

open Interleave

/-- The user's only line of the item has `n` units, and without one `n` is
zero. -/
abbrev Store.OneLine (s : Store ℤ) (uid : String) (ref : ItemRef) (n : ℤ) :
    Prop :=
  s.OneOf uid (fun d => d.ref = ref) n

/-- A line is only created where there is none of its name, and a count only
written over the one that was seen. -/
def AddCall.LineFresh (s : Store ℤ) : AddCall ℤ → Prop
  | .setLine _ uid d => ∀ e ∈ s.lines uid, e.2.name ≠ d.name
  | .updateLines req uid pending _ =>
      ∀ e ∈ pending,
        (s.line uid e.1).map (fun d => d.count + req.elementCount) = some e.2
  | _ => True

instance (s : Store ℤ) : DecidablePred (AddCall.LineFresh s)
  | .setLine _ uid d =>
      inferInstanceAs (Decidable (∀ e ∈ s.lines uid, e.2.name ≠ d.name))
  | .updateLines req uid pending _ =>
      inferInstanceAs (Decidable (∀ e ∈ pending,
        (s.line uid e.1).map (fun d => d.count + req.elementCount) =
          some e.2))
  | .getItem _ | .updateStock _ _ _ | .queryBasket _ _ _ _ | .done _
  | .failed _ _ => .isTrue trivial

def LineFreshStep (s : Store ℤ) (c : AddCall ℤ) (s' : Store ℤ)
    (c' : AddCall ℤ) : Prop :=
  AddCall.Acts s c s' c' ∧ c.LineFresh s

section Lines

variable {s s' : Store ℤ} {uid name : String} {ref : ItemRef} {n m : ℤ}
  {d : LineDoc ℤ} {l : String}

theorem Store.OneLine.atMostOne (h : s.OneLine uid ref n) :
    s.AtMostOneLine uid ref :=
  fun _ _ _ _ hl hl' hd hd' => h.eq_line hl hd hl' hd'

theorem Store.NamesLines.setLine (h : s.NamesLines uid ref name)
    (hname : d.name = some name) (href : d.ref = ref) :
    (s.setLine uid l d).NamesLines uid ref name := by
  intro l' d' hl'
  rcases Store.line_of_setLine hl' with ⟨-, -, rfl⟩ | hl'
  · exact ⟨fun _ => href, fun _ => hname⟩
  · exact h l' d' hl'

end Lines

/-! ## Where the calls stand

`free` is what the stock holds at least, whatever order the stock was written
in: the initial count less everything taken so far. -/

section Stands

variable {s s' : Store ℤ} {uid name : String} {ref : ItemRef}
  {n free free' : ℤ} {c c' : AddCall ℤ}

def Store.HasLine (s : Store ℤ) (uid : String) (ref : ItemRef) (l : String) :
    Prop :=
  ∃ d, s.line uid l = some d ∧ d.ref = ref

theorem Store.HasLine.setLine {l l' : String} {d : LineDoc ℤ}
    (h : s.HasLine uid ref l') (href : d.ref = ref) :
    (s.setLine uid l d).HasLine uid ref l' := by
  obtain ⟨d', hl', href'⟩ := h
  rw [Store.HasLine, Store.line_setLine]
  split
  · exact ⟨d, rfl, href⟩
  · exact ⟨d', hl', href'⟩

inductive LineAt (ref : ItemRef) (uid : String) (n : ℤ) (name : String)
    (free : ℤ) (s : Store ℤ) : AddCall ℤ → Prop
  | getItem : LineAt ref uid n name free s (.getItem (.of ref uid n))
  | updateStock {item : ItemDoc ℤ} (hname : item.name = some name)
      (hfree : free ≤ item.count) : LineAt ref uid n name free s
        (.updateStock (.of ref uid n) item (item.count - n))
  | queryBasket {item : ItemDoc ℤ} (hname : item.name = some name) :
      LineAt ref uid n name free s
        (.queryBasket (.of ref uid n) item uid name)
  | setLine {d : LineDoc ℤ} (hname : d.name = some name) (href : d.ref = ref)
      (hcount : d.count = n) :
      LineAt ref uid n name free s (.setLine (.of ref uid n) uid d)
  | updateLine {l : String} {m : ℤ} (hl : s.HasLine uid ref l) :
      LineAt ref uid n name free s
        (.updateLines (.of ref uid n) uid [(l, m)] none)
  | done (h : ∃ l, s.HasLine uid ref l) :
      LineAt ref uid n name free s (.done (.of ref uid n))

theorem LineAt.mono (h : LineAt ref uid n name free s c) (hfree : free' ≤ free)
    (hl : ∀ l, s.HasLine uid ref l → s'.HasLine uid ref l) :
    LineAt ref uid n name free' s' c := by
  cases h with
  | getItem => exact .getItem
  | updateStock hname hf => exact .updateStock hname (hfree.trans hf)
  | queryBasket hname => exact .queryBasket hname
  | setLine hname href hcount => exact .setLine hname href hcount
  | updateLine h => exact .updateLine (hl _ h)
  | done h => exact .done (h.imp hl)

theorem LineAt.taken_le (h : LineAt ref uid n name free s c) (hn : 0 ≤ n) :
    0 ≤ c.taken ∧ c.taken ≤ n := by
  cases h <;> simp [AddCall.taken, AddReq.of, hn]

/-- What a fresh action of an add does, in three cases: it reads, it takes
units out of the stock, or it writes the one line. -/
theorem LineAt.act_cases (hs : s.Named ref name)
    (hnames : s.NamesLines uid ref name) {prev : ℤ}
    (hone : s.OneLine uid ref prev) (hample : n ≤ s.stock ref ∨ c.taken ≠ 0)
    (hfree : free ≤ s.stock ref) (h : LineAt ref uid n name free s c)
    (ha : LineFreshStep s c s' c') :
    (s' = s ∧ LineAt ref uid n name free s c' ∧ c'.taken = c.taken ∧
      c'.placed = c.placed) ∨
    (∃ m, s.updateItem ref m = some s' ∧ free ≤ m + n ∧
      (∀ free' s'', LineAt ref uid n name free' s'' c') ∧
      c'.taken = c.taken + n ∧ c'.placed = c.placed) ∨
    (∃ l d, s' = s.setLine uid l d ∧ d.name = some name ∧ d.ref = ref ∧
      s'.OneLine uid ref (prev + n) ∧ c' = .done (.of ref uid n) ∧
      c'.taken = c.taken ∧ c.placed = 0) := by
  obtain ⟨ha, hf⟩ := ha
  cases h with
  | getItem =>
      cases ha
      obtain ⟨item, hi, hname⟩ := hs
      have hst := Store.stock_of_items hi
      have hle : n ≤ item.count := by
        rcases hample with h | h
        · omega
        · exact absurd rfl h
      refine Or.inl ⟨rfl, ?_⟩
      rw [AddReq.of_ref, hi, AddCall.onItem_of, if_pos hle]
      exact ⟨.updateStock hname (by omega), rfl, rfl⟩
  | @updateStock item hname hfr =>
      cases ha with
      | updateStock _ _ _ hu =>
          refine Or.inr (Or.inl ⟨_, hu, by omega, ?_, ?_, ?_⟩)
          · intro free' s''
            rw [AddCall.onStockUpdated_of hname]
            exact .queryBasket hname
          · rw [AddCall.onStockUpdated_of hname]
            simp [AddCall.taken, AddReq.of]
          · rw [AddCall.onStockUpdated_of hname]
            rfl
  | queryBasket hname =>
      cases ha
      refine Or.inl ⟨rfl, ?_, AddCall.taken_onBasket _, ?_⟩
      · rcases hone.atMostOne.linesNamed hnames with hq | ⟨l, d, hl, href, hq⟩
        · rw [hq]
          exact .setLine hname rfl rfl
        · rw [hq]
          exact .updateLine ⟨d, hl, href⟩
      · cases s.linesNamed uid name <;> rfl
  | @setLine d hname href hcount =>
      cases ha with
      | setLine _ _ _ autoId hnew =>
          have hnone : ∀ l d', s.line uid l = some d' → d'.ref ≠ ref := by
            intro l d' hl href'
            have hne := hf (l, d') (Store.mem_lines.mpr hl)
            exact hne (((hnames l d' hl).mpr href').trans hname.symm)
          exact Or.inr (Or.inr ⟨autoId, d, rfl, hname, href,
            hcount ▸ hone.setLine hnone href, rfl, rfl, rfl⟩)
  | @updateLine l m hl =>
      cases ha with
      | updateLine _ _ _ _ k hk hu =>
          obtain ⟨d, hd, href⟩ := hl
          have hm := hf (l, m) (by simp)
          obtain ⟨rfl, rfl, rfl⟩ : k = 0 ∧ _ = l ∧ _ = m := by
            cases k with
            | zero => simpa [eq_comm] using hk
            | succ k => simp at hk
          obtain ⟨d', hd', rfl⟩ := Store.updateLine_eq_some.mp hu
          obtain rfl : d' = d := Option.some.inj (hd'.symm.trans hd)
          simp only [hd, Option.map_some, Option.some.injEq] at hm
          refine Or.inr (Or.inr ⟨_, _, rfl, (hnames _ d' hd).mpr href, href, ?_,
            rfl, rfl, rfl⟩)
          rw [← hm]
          exact hone.updateLine hd href href
  | done => cases ha

end Stands

/-! ## All calls together -/

section Adding

variable {ι : Type} [Fintype ι] {s₀ : Store ℤ} {uid name : String}
  {ref : ItemRef} {n : ι → ℤ} {prev : ℤ}

/-- Every call stands where it can, the stock still serves those that have not
taken from it, and the line has grown by what is placed. -/
structure Adding (s₀ : Store ℤ) (uid name : String) (ref : ItemRef)
    (n : ι → ℤ) (prev : ℤ) (c : Config ι (Store ℤ) (AddCall ℤ)) : Prop where
  named : c.shared.Named ref name
  names : c.shared.NamesLines uid ref name
  line : c.shared.OneLine uid ref (prev + ∑ i, (c.locals i).placed)
  stands : ∀ i, LineAt ref uid (n i) name
    (s₀.stock ref - ∑ i, (c.locals i).taken) c.shared (c.locals i)
  stock : s₀.stock ref - ∑ i, (c.locals i).taken ≤ c.shared.stock ref

theorem Adding.ample {c : Config ι (Store ℤ) (AddCall ℤ)}
    (h : Adding s₀ uid name ref n prev c) (hn : ∀ i, 0 ≤ n i)
    (hsum : ∑ i, n i ≤ s₀.stock ref) (i : ι) :
    n i ≤ c.shared.stock ref ∨ (c.locals i).taken ≠ 0 := by
  rcases eq_or_ne (c.locals i).taken 0 with h0 | h0
  · have hle := Finset.single_le_sum
      (f := fun j => n j - (c.locals j).taken)
      (fun j _ => sub_nonneg.mpr ((h.stands j).taken_le (hn j)).2)
      (Finset.mem_univ i)
    rw [Finset.sum_sub_distrib] at hle
    simp only [h0, sub_zero] at hle
    have hstock := h.stock
    exact Or.inl (by omega)
  · exact Or.inr h0

variable [DecidableEq ι]

theorem Adding.act {c : Config ι (Store ℤ) (AddCall ℤ)}
    (h : Adding s₀ uid name ref n prev c) (hn : ∀ i, 0 ≤ n i)
    (hsum : ∑ i, n i ≤ s₀.stock ref) {i : ι} {s : Store ℤ} {k : AddCall ℤ}
    (ha : LineFreshStep c.shared (c.locals i) s k) :
    Adding s₀ uid name ref n prev (c.act i s k) := by
  have htaken := c.sum_act (fun _ => AddCall.taken) i s k
  have hplaced := c.sum_act (fun _ => AddCall.placed) i s k
  -- the calls that do not act see a store with at least the same lines
  have hothers : ∀ free, free ≤ s₀.stock ref - ∑ j, (c.locals j).taken →
      (∀ l, c.shared.HasLine uid ref l → s.HasLine uid ref l) →
      LineAt ref uid (n i) name free s k →
      ∀ j, LineAt ref uid (n j) name free s ((c.act i s k).locals j) := by
    intro free hfree hl hk j
    by_cases hj : j = i
    · subst hj
      rw [Config.act_self]
      exact hk
    · rw [Config.act_ne c s k hj]
      exact (h.stands j).mono hfree hl
  rcases (h.stands i).act_cases h.named h.names h.line (h.ample hn hsum i)
    h.stock ha with ⟨rfl, hk, ht, hp⟩ | ⟨m, hu, hm, hk, ht, hp⟩ |
    ⟨l, d, rfl, hname, href, hone, rfl, ht, hp⟩
  · rw [ht] at htaken
    rw [hp] at hplaced
    have htaken' := add_right_cancel htaken
    have hplaced' := add_right_cancel hplaced
    refine ⟨h.named, h.names, ?_, ?_, ?_⟩
    · rw [hplaced']; exact h.line
    · rw [htaken']; exact hothers _ le_rfl (fun _ hl => hl) hk
    · rw [htaken']; exact h.stock
  · have htaken' : ∑ j, ((c.act i s k).locals j).taken =
        ∑ j, (c.locals j).taken + n i := by omega
    rw [hp] at hplaced
    have hplaced' := add_right_cancel hplaced
    have hline : ∀ l, s.line uid l = c.shared.line uid l :=
      Store.updateItem_line hu uid
    refine ⟨h.named.updateItem hu, fun l d hd => h.names l d (hline l ▸ hd),
      ?_, ?_, ?_⟩
    · rw [hplaced']; exact h.line.congr hline
    · have hni := hn i
      refine hothers _ (by omega) ?_ (hk _ _)
      intro l hl
      obtain ⟨d, hd, href⟩ := hl
      exact ⟨d, hline l ▸ hd, href⟩
    · rw [Config.act_shared, Store.stock_updateItem hu, if_pos rfl]
      omega
  · rw [ht] at htaken
    have htaken' := add_right_cancel htaken
    have hplaced' : ∑ j, ((c.act i (c.shared.setLine uid l d)
        (.done (.of ref uid (n i)))).locals j).placed =
        ∑ j, (c.locals j).placed + n i := by
      rw [hp, add_zero] at hplaced
      exact hplaced
    refine ⟨h.named, h.names.setLine hname href, ?_, ?_, ?_⟩
    · rw [hplaced', ← add_assoc]; exact hone
    · rw [htaken']
      refine hothers _ le_rfl (fun _ hl => hl.setLine href) (.done ⟨l, d, ?_, href⟩)
      simp [Store.line_setLine]
    · rw [htaken']; exact h.stock

end Adding

/-- Adds of one user to one item whose basket writes are all fresh share one
line, and it grows by what they ask for. -/
theorem one_line_grows {ι : Type} [Fintype ι] [DecidableEq ι] {s₀ : Store ℤ}
    {uid name : String} {ref : ItemRef} {n : ι → ℤ} {prev : ℤ}
    (hname : s₀.Named ref name) (hnames : s₀.NamesLines uid ref name)
    (hprev : s₀.OneLine uid ref prev) (hn : ∀ i, 1 ≤ n i)
    (hample : ∑ i, n i ≤ s₀.stock ref)
    {c : Config ι (Store ℤ) (AddCall ℤ)}
    (hrun : Run (fun _ => LineFreshStep)
      ⟨s₀, fun i => .getItem (.of ref uid (n i))⟩ c) :
    c.shared.AtMostOneLine uid ref ∧
      ((∀ i, (c.locals i).Finished) → Nonempty ι →
        ∃ l d, c.shared.line uid l = some d ∧ d.ref = ref ∧
          d.count = prev + ∑ i, n i) := by
  have hn0 : ∀ i, 0 ≤ n i := fun i => le_trans (by decide) (hn i)
  have hstart : Adding s₀ uid name ref n prev
      ⟨s₀, fun i => .getItem (.of ref uid (n i))⟩ := by
    refine ⟨hname, hnames, ?_, fun _ => .getItem, ?_⟩
    · simpa [AddCall.placed] using hprev
    · simp [AddCall.taken]
  have hend : Adding s₀ uid name ref n prev c :=
    hrun.invariant (fun _ _ _ _ h hs => h.act hn0 hample hs) hstart
  refine ⟨hend.line.atMostOne, fun hfin hne => ?_⟩
  have hplaced : ∀ i, (c.locals i).placed = n i ∧
      ∃ l, c.shared.HasLine uid ref l := by
    intro i
    have hat := hend.stands i
    have hf := hfin i
    generalize c.locals i = x at hat hf
    cases hat with
    | done h => exact ⟨rfl, h⟩
    | getItem | updateStock | queryBasket | setLine | updateLine =>
        exact hf.elim
  obtain ⟨i⟩ := hne
  obtain ⟨l, d, hl, href⟩ := (hplaced i).2
  have hsum : ∑ i, (c.locals i).placed = ∑ i, n i :=
    Finset.sum_congr rfl fun i _ => (hplaced i).1
  have hline := hend.line
  rw [hsum] at hline
  cases hline with
  | absent h => exact absurd href (h l d hl)
  | line l' d' hl' href' _ hcount => exact ⟨l', d', hl', href', hcount⟩

/-- Two adds, of one camera and of two, one after the other. -/
theorem one_line_grows_cameras :
    ∃ c, Run (fun _ => LineFreshStep)
        ⟨cameras 3, fun i : Bool =>
          .getItem (.of camera "ann" (bif i then 1 else 2))⟩ c ∧
      ∃ l d, c.shared.line "ann" l = some d ∧ d.ref = camera ∧
        d.count = 3 := by
  obtain ⟨c, hrun, hfin⟩ : ∃ c, Run (fun _ => LineFreshStep)
      ⟨cameras 3, fun i : Bool =>
        .getItem (.of camera "ann" (bif i then 1 else 2))⟩ c ∧
      ∀ i, (c.locals i).Finished :=
    exists_run_of_play (fun _ => AddCall.act? AddCall.LineFresh)
      (fun _ _ _ _ _ _ => AddCall.acts_of_act?)
      [(true, "a", 0), (true, "a", 0), (true, "a", 0), (true, "a", 0),
        (false, "", 0), (false, "", 0), (false, "", 0), (false, "", 0)]
      (by decide +kernel)
  have hnamed : Store.Named (cameras (3 : ℤ)) camera "Camera" :=
    ⟨_, rfl, rfl⟩
  have hnames : (cameras (3 : ℤ)).NamesLines "ann" camera "Camera" := by
    intro l d hd
    cases hd
  have hline : (cameras (3 : ℤ)).OneLine "ann" camera 0 := by
    refine .absent (fun l d hd => ?_) rfl
    cases hd
  refine ⟨c, hrun, ?_⟩
  exact (one_line_grows hnamed hnames hline (by decide) (by decide +kernel)
    hrun).2 hfin ⟨true⟩

/-- Two adds of one camera; both look for the line before either has created
one, and then there are two. -/
theorem two_lines :
    ∃ c, Run (fun _ => AddCall.Acts)
        ⟨cameras (2 : ℤ), fun _ : Bool => .getItem (.of camera "ann" 1)⟩ c ∧
      (∀ i, (c.locals i).Finished) ∧
      ¬ c.shared.AtMostOneLine "ann" camera := by
  obtain ⟨c, hrun, hfin, ha, hb⟩ : ∃ c, Run (fun _ => AddCall.Acts)
      ⟨cameras (2 : ℤ), fun _ : Bool => .getItem (.of camera "ann" 1)⟩ c ∧
      (∀ i, (c.locals i).Finished) ∧
      (c.shared.line "ann" "a").map LineDoc.ref = some camera ∧
      (c.shared.line "ann" "b").map LineDoc.ref = some camera :=
    exists_run_of_play (fun _ => AddCall.act? fun _ _ => True)
      (fun _ _ _ _ _ _ h => (AddCall.acts_of_act? h).1)
      [(true, "", 0), (true, "", 0), (false, "", 0), (false, "", 0),
        (true, "", 0), (false, "", 0), (true, "a", 0), (false, "b", 0)]
      (by decide +kernel)
  obtain ⟨d, hd, href⟩ := Option.map_eq_some_iff.mp ha
  obtain ⟨d', hd', href'⟩ := Option.map_eq_some_iff.mp hb
  refine ⟨c, hrun, hfin, fun h => ?_⟩
  exact absurd (h "a" "b" d d' hd hd' href href') (by decide)

end PhoRent
