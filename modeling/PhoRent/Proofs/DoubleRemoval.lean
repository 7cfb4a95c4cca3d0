import PhoRent.Functions.Play
import PhoRent.Proofs.Positions

/-!
# Many removals of one line

A removal looks whether the line is there, deletes it, and only then returns
its units; a delete of a missing document succeeds. So every call that looked
in time returns the units of the one line. What saves the count, where it is
saved, is that the stock is written whole: if every call has read the stock
before any has written it, they all write the same number.
-/

namespace PhoRent

open Interleave

/-- A removal about to read the stock finds what was there at the start. -/
def DeleteCall.StockUntouched (s₀ s : Store ℤ) : DeleteCall ℤ → Prop
  | .getItem _ _ ref => s.stock ref = s₀.stock ref
  | _ => True

instance (s₀ s : Store ℤ) : DecidablePred (DeleteCall.StockUntouched s₀ s)
  | .getItem _ _ ref => inferInstanceAs (Decidable (s.stock ref = s₀.stock ref))
  | .getLine _ | .deleteLine _ _ | .updateStock _ _ _ _ | .done _ _
  | .failed _ _ => .isTrue trivial

def UntouchedStep (s₀ s : Store ℤ) (c : DeleteCall ℤ) (s' : Store ℤ)
    (c' : DeleteCall ℤ) : Prop :=
  DeleteCall.Acts s c s' c' ∧ c.StockUntouched s₀ s

section Removals

variable {s₀ s s' : Store ℤ} {ref : ItemRef} {uid lineID : String}
  {d : LineDoc ℤ} {c c' : DeleteCall ℤ}

/-- Where one of the removals of line `d` can stand. -/
inductive RemovalAt (s₀ : Store ℤ) (ref : ItemRef) (uid lineID : String)
    (k : ℤ) (s : Store ℤ) : DeleteCall ℤ → Prop
  | getLine : RemovalAt s₀ ref uid lineID k s (.getLine (.of ref uid lineID))
  | deleteLine :
      RemovalAt s₀ ref uid lineID k s (.deleteLine (.of ref uid lineID) k)
  | getItem :
      RemovalAt s₀ ref uid lineID k s (.getItem (.of ref uid lineID) k ref)
  | updateStock : RemovalAt s₀ ref uid lineID k s
      (.updateStock (.of ref uid lineID) k ref (s₀.stock ref + k))
  | done (h : s.stock ref = s₀.stock ref + k) :
      RemovalAt s₀ ref uid lineID k s (.done (.of ref uid lineID) k)
  | gone {e : JsError} (h : s.line uid lineID = none) :
      RemovalAt s₀ ref uid lineID k s (.failed (.of ref uid lineID) e)

def DeleteCall.HasLine : DeleteCall ℤ → Prop
  | .getItem _ _ _ | .updateStock _ _ _ _ | .done _ _ => True
  | _ => False

/-- The item is in the catalogue, and the line is `d` as long as it is there. -/
def Removable (ref : ItemRef) (uid lineID : String) (d : LineDoc ℤ)
    (s : Store ℤ) : Prop :=
  (∃ item, s.items ref = some item) ∧
    ∀ d', s.line uid lineID = some d' → d' = d

theorem RemovalAt.own (hs : Removable ref uid lineID d s)
    (h : RemovalAt s₀ ref uid lineID d.count s c)
    (ha : UntouchedStep s₀ s c s' c') :
    Removable ref uid lineID d s' ∧
      RemovalAt s₀ ref uid lineID d.count s' c' := by
  obtain ⟨ha, hf⟩ := ha
  obtain ⟨⟨item, hi⟩, hl⟩ := hs
  cases h with
  | getLine =>
      cases ha
      refine ⟨⟨⟨item, hi⟩, hl⟩, ?_⟩
      simp only [DeleteReq.of]
      cases hd : s.line uid lineID with
      | none => exact .gone hd
      | some d' => exact hl d' hd ▸ .deleteLine
  | deleteLine =>
      cases ha
      refine ⟨⟨⟨item, hi⟩, fun d' hd' =>
        hl d' (Store.line_of_deleteLine hd')⟩, ?_⟩
      rw [DeleteReq.onDeleted_of]
      exact .getItem
  | getItem =>
      cases ha
      refine ⟨⟨⟨item, hi⟩, hl⟩, ?_⟩
      have hread : item.count = s₀.stock ref := by
        rw [← Store.stock_of_items hi]
        exact hf
      rw [hi]
      simp only [DeleteCall.onItem, Count.add_int, hread]
      exact .updateStock
  | updateStock =>
      cases ha with
      | updateStock _ _ _ _ hu =>
          have hst := Store.stock_updateItem hu ref
          rw [if_pos rfl] at hst
          refine ⟨⟨?_, fun d' hd' => hl d' ?_⟩, .done hst⟩
          · obtain ⟨item', hi', rfl⟩ := Store.updateItem_eq_some.mp hu
            exact ⟨_, Function.update_self ..⟩
          · rw [← Store.updateItem_line hu]
            exact hd'
  | done => cases ha
  | gone => cases ha

/-- An action leaves a deleted line deleted, and the stock as it is or one
line fuller than at the start. -/
theorem RemovalAt.frame {k : ℤ} (h : RemovalAt s₀ ref uid lineID k s c)
    (ha : DeleteCall.Acts s c s' c') :
    (s.line uid lineID = none → s'.line uid lineID = none) ∧
      (s'.stock ref = s.stock ref ∨ s'.stock ref = s₀.stock ref + k) := by
  cases h with
  | getLine | getItem => cases ha; exact ⟨id, Or.inl rfl⟩
  | deleteLine =>
      cases ha
      refine ⟨fun hn => ?_, Or.inl rfl⟩
      rw [Store.line_deleteLine]
      split
      · rfl
      · exact hn
  | updateStock =>
      cases ha with
      | updateStock _ _ _ _ hu =>
          refine ⟨fun hn => ?_, Or.inr ?_⟩
          · rw [Store.updateItem_line hu]
            exact hn
          · rw [Store.stock_updateItem hu, if_pos rfl]
  | done => cases ha
  | gone => cases ha

theorem RemovalAt.other {k : ℤ} {x : DeleteCall ℤ}
    (hx : RemovalAt s₀ ref uid lineID k s x)
    (h : RemovalAt s₀ ref uid lineID k s c)
    (ha : DeleteCall.Acts s c s' c') :
    RemovalAt s₀ ref uid lineID k s' x := by
  obtain ⟨hline, hstock⟩ := h.frame ha
  cases hx with
  | getLine => exact .getLine
  | deleteLine => exact .deleteLine
  | getItem => exact .getItem
  | updateStock => exact .updateStock
  | done hd => exact .done (hstock.elim (fun he => he.trans hd) id)
  | gone hn => exact .gone (hline hn)

/-- The line only goes missing through a call that then has it. -/
theorem RemovalAt.hasLine {k : ℤ} (h : RemovalAt s₀ ref uid lineID k s c)
    (ha : DeleteCall.Acts s c s' c') (hi : ∃ item, s.items ref = some item) :
    (c.HasLine → c'.HasLine) ∧
      (s'.line uid lineID = none → s.line uid lineID = none ∨ c'.HasLine) := by
  cases h with
  | getLine => cases ha; exact ⟨False.elim, Or.inl⟩
  | deleteLine =>
      cases ha
      exact ⟨False.elim, fun _ => Or.inr trivial⟩
  | getItem =>
      cases ha
      obtain ⟨item, hi⟩ := hi
      rw [hi]
      exact ⟨fun _ => trivial, fun _ => Or.inr trivial⟩
  | updateStock => cases ha; exact ⟨fun _ => trivial, fun _ => Or.inr trivial⟩
  | done => cases ha
  | gone => cases ha

/-- Every removal stands where it can, and if the line is gone some removal
has it. -/
structure Removals {ι : Type} (s₀ : Store ℤ) (uid lineID : String)
    (d : LineDoc ℤ) (c : Config ι (Store ℤ) (DeleteCall ℤ)) : Prop where
  removable : Removable d.ref uid lineID d c.shared
  stands : ∀ i, RemovalAt s₀ d.ref uid lineID d.count c.shared (c.locals i)
  taken : c.shared.line uid lineID = none → ∃ i, (c.locals i).HasLine

theorem Removals.act {ι : Type} [DecidableEq ι]
    {c : Config ι (Store ℤ) (DeleteCall ℤ)} (h : Removals s₀ uid lineID d c)
    {i : ι} (ha : UntouchedStep s₀ c.shared (c.locals i) s' c') :
    Removals s₀ uid lineID d (c.act i s' c') := by
  obtain ⟨hs', hi'⟩ := (h.stands i).own h.removable ha
  obtain ⟨hkeep, hgone⟩ := (h.stands i).hasLine ha.1 h.removable.1
  refine ⟨hs', fun j => ?_, fun hn => ?_⟩
  · by_cases hj : j = i
    · subst hj
      rw [Config.act_self]
      exact hi'
    · rw [Config.act_ne c s' c' hj]
      exact (h.stands j).other (h.stands i) ha.1
  · rcases hgone hn with hn' | hhas
    · exact Config.exists_act hkeep (h.taken hn')
    · exact ⟨i, by rw [Config.act_self]; exact hhas⟩

theorem Removals.finished {ι : Type} [Nonempty ι]
    {c : Config ι (Store ℤ) (DeleteCall ℤ)} (h : Removals s₀ uid lineID d c)
    (hfin : ∀ i, (c.locals i).Finished) :
    c.shared.stock d.ref = s₀.stock d.ref + d.count := by
  have hdone : ∀ i, (c.locals i).HasLine →
      c.shared.stock d.ref = s₀.stock d.ref + d.count := by
    intro i hi
    have hat := h.stands i
    have hf := hfin i
    generalize c.locals i = x at hat hi hf
    cases hat with
    | done hst => exact hst
    | getLine | deleteLine | gone => exact hi.elim
    | getItem | updateStock => exact hf.elim
  obtain ⟨i⟩ := ‹Nonempty ι›
  by_cases hi : (c.locals i).HasLine
  · exact hdone i hi
  · have hat := h.stands i
    have hf := hfin i
    generalize c.locals i = x at hat hi hf
    cases hat with
    | gone hn =>
        obtain ⟨j, hj⟩ := h.taken hn
        exact hdone j hj
    | getItem | updateStock | done => exact absurd trivial hi
    | getLine | deleteLine => exact hf.elim

end Removals

/-- Where every removal finds the stock untouched when it reads it, any number
of removals of one line together return its units once. -/
theorem restocked_once {ι : Type} [DecidableEq ι] [Nonempty ι]
    {uid lineID : String} {s₀ : Store ℤ} {item : ItemDoc ℤ} {d : LineDoc ℤ}
    (hitem : s₀.items d.ref = some item)
    (hline : s₀.line uid lineID = some d)
    {c : Config ι (Store ℤ) (DeleteCall ℤ)}
    (hrun : Run (fun _ => UntouchedStep s₀)
      ⟨s₀, fun _ => .getLine (.of d.ref uid lineID)⟩ c)
    (hfin : ∀ i, (c.locals i).Finished) :
    c.shared.stock d.ref = s₀.stock d.ref + d.count := by
  have hstart : Removals s₀ uid lineID d
      ⟨s₀, fun _ : ι => .getLine (.of d.ref uid lineID)⟩ := by
    refine ⟨⟨⟨item, hitem⟩, fun d' hd' => ?_⟩, fun _ => .getLine, fun hn => ?_⟩
    · exact Option.some.inj (hd'.symm.trans hline)
    · rw [hline] at hn
      cases hn
  have hend : Removals s₀ uid lineID d c :=
    hrun.invariant (fun _ _ _ _ h hs => h.act hs) hstart
  exact hend.finished hfin

/-- Two taps on the button of a line with two cameras, none in stock. Both
calls read the line and the stock before either restocks. -/
theorem restocked_once_cameras :
    ∃ c, Run (fun _ => UntouchedStep
          ((cameras 0).setLine "ann" "l" (cameraLine 2)))
        ⟨(cameras 0).setLine "ann" "l" (cameraLine 2),
          fun _ : Bool => .getLine (.of camera "ann" "l")⟩ c ∧
      c.shared.stock camera = 2 := by
  obtain ⟨c, hrun, hfin⟩ : ∃ c, Run (fun _ => UntouchedStep
        ((cameras 0).setLine "ann" "l" (cameraLine 2)))
      ⟨(cameras 0).setLine "ann" "l" (cameraLine 2),
        fun _ : Bool => .getLine (.of camera "ann" "l")⟩ c ∧
      ∀ i, (c.locals i).Finished :=
    exists_run_of_play (fun _ => DeleteCall.act? (DeleteCall.StockUntouched
        ((cameras 0).setLine "ann" "l" (cameraLine 2))))
      (fun _ _ _ _ _ _ => DeleteCall.acts_of_act?)
      [(true, "", 0), (false, "", 0), (true, "", 0), (false, "", 0),
        (true, "", 0), (false, "", 0), (true, "", 0), (false, "", 0)]
      (by decide +kernel)
  have hline : ((cameras (0 : ℤ)).setLine "ann" "l" (cameraLine 2)).line
      "ann" "l" = some (cameraLine 2) := by simp [Store.line_setLine]
  have hdone := restocked_once rfl hline hrun hfin
  exact ⟨c, hrun, hdone⟩

/-- The same two taps, but the second call only reads the stock when the first
has restocked: the two cameras are returned twice. -/
theorem restocked_twice :
    ∃ c, Run (fun _ => DeleteCall.Acts)
        ⟨(cameras 0).setLine "ann" "l" (cameraLine 2),
          fun _ : Bool => .getLine (.of camera "ann" "l")⟩ c ∧
      (∀ i, (c.locals i).Finished) ∧ c.shared.stock camera = 4 ∧
      c.shared.stock camera ≠
        ((cameras 0).setLine "ann" "l" (cameraLine 2)).stock camera +
          (cameraLine (2 : ℤ)).count :=
  exists_run_of_play (fun _ => DeleteCall.act? fun _ _ => True)
    (fun _ _ _ _ _ _ h => (DeleteCall.acts_of_act? h).1)
    [(true, "", 0), (false, "", 0), (true, "", 0), (false, "", 0),
      (true, "", 0), (true, "", 0), (false, "", 0), (false, "", 0)]
    (by decide +kernel)

end PhoRent
