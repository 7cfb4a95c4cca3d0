import Mathlib.Algebra.Order.BigOperators.Group.Finset
import PhoRent.Functions.Play
import PhoRent.Lib.Interleave
import PhoRent.Store.Units

/-!
# Every call comes to an end

No function waits for another, and none tries again, so the calls should end
whatever they do to each other. How long one takes is not a matter of the call
alone, though: it updates as many lines as its query has found, and other calls
may have created some of them since it was started.

But a call creates one line at most. So the lines there can ever be are those
of the start and one for each call, and that bounds what any query finds.
-/

namespace PhoRent

open Interleave

variable {V : Type} [Count V]

/-- The operation in flight, one of them where there are several, is carried
out or refused. -/
def Call.Served (s : Store V) (k : Call V) (s' : Store V) (k' : Call V) :
    Prop :=
  Acts s k s' k' ∨ s' = s ∧ Fails s k k'

/-- The handler has let the call through and sent its first operation off. -/
def Call.LetThrough (call : Call V) : Prop :=
  (∃ data auth v, addItemInBasket data auth = .returned v call) ∨
    ∃ data auth v, deleteItemFromBasket data auth = .returned v call

def Store.lineCount (s : Store V) : ℕ := s.basket.docs.length

namespace Call

/-- The operations a call may still need when there are never more than
`lines` basket lines. -/
def work (lines : ℕ) : Call V → ℕ
  | .add (.getItem _) => lines + 3
  | .add (.updateStock _ _ _) => lines + 2
  | .add (.queryBasket _ _ _ _) => lines + 1
  | .add (.setLine _ _ _) => 1
  | .add (.updateLines _ _ pending _) => pending.length
  | .delete (.getLine _) => 4
  | .delete (.deleteLine _ _) => 3
  | .delete (.getItem _ _ _) => 2
  | .delete (.updateStock _ _ _ _) => 1
  | .add (.done _) | .add (.failed _ _) | .delete (.done _ _)
  | .delete (.failed _ _) => 0

def creates : Call V → ℕ
  | .add (.getItem _) | .add (.updateStock _ _ _)
  | .add (.queryBasket _ _ _ _) | .add (.setLine _ _ _) => 1
  | _ => 0

def Busy : Call V → Prop
  | .add (.updateLines _ _ pending _) => pending ≠ []
  | _ => True

end Call

section Steps

variable {s s' : Store V} {k k' : Call V} {lines : ℕ}

omit [Count V] in
theorem Store.lineCount_updateItem {ref : ItemRef} {n : V}
    (h : s.updateItem ref n = some s') : s'.lineCount = s.lineCount := by
  rw [lineCount, updateItem_basket h, lineCount]

omit [Count V] in
theorem Store.lineCount_setLine_le (uid lineID : String) (d : LineDoc V) :
    (s.setLine uid lineID d).lineCount ≤ s.lineCount + 1 :=
  Keyed.Coll.length_put_le _ _ _

omit [Count V] in
theorem Store.lineCount_updateLine {uid lineID : String} {n : V}
    (h : s.updateLine uid lineID n = some s') :
    s'.lineCount = s.lineCount := by
  obtain ⟨d, hd, rfl⟩ := updateLine_eq_some.mp h
  exact Keyed.Coll.length_put_of_get _ hd

omit [Count V] in
theorem Store.length_linesNamed_le (uid name : String) :
    (s.linesNamed uid name).length ≤ s.lineCount := by
  refine (List.length_filter_le _ _).trans ?_
  rw [lines, List.length_map]
  exact List.length_filter_le _ _

/-! ### What an operation costs -/

omit [Count V] in
@[simp] theorem Call.work_settle (req : AddReq V) (uid : String)
    (pending : List (String × V)) (err : Option JsError) :
    work lines (.add (.settle req uid pending err)) = pending.length := by
  by_cases hnil : pending = []
  · subst hnil
    cases err <;> rfl
  · rw [AddCall.settle_ne_nil req uid hnil, work]

omit [Count V] in
@[simp] theorem Call.creates_settle (req : AddReq V) (uid : String)
    (pending : List (String × V)) (err : Option JsError) :
    creates (.add (.settle req uid pending err)) = 0 :=
  AddCall.settle_ind (fun c => creates (.add c) = 0) rfl (fun _ => rfl) rfl

omit [Count V] in
theorem Call.busy_settle (req : AddReq V) (uid : String)
    (pending : List (String × V)) (err : Option JsError) :
    Busy (.add (.settle req uid pending err)) := by
  by_cases hnil : pending = []
  · subst hnil
    cases err <;> trivial
  · rw [AddCall.settle_ne_nil req uid hnil]
    exact hnil

/-- What a call captures of its query is no more than there are lines. -/
theorem Call.onBasket_spec (req : AddReq V) (item : ItemDoc V) (uid : String)
    {docs : List (String × LineDoc V)} (hdocs : docs.length ≤ lines)
    (hlines : 1 ≤ lines) :
    work lines (.add (.onBasket req item uid docs)) < lines + 1 ∧
      creates (.add (.onBasket req item uid docs)) ≤ 1 ∧
      Busy (.add (.onBasket req item uid docs)) := by
  cases docs with
  | nil =>
      rw [AddCall.onBasket]
      split
      · exact ⟨Nat.lt_succ_of_le hlines, Nat.le_refl 1, trivial⟩
      · exact ⟨Nat.succ_pos _, Nat.zero_le 1, trivial⟩
  | cons e rest =>
      have hwork : work lines (.add (.onBasket req item uid (e :: rest))) =
          (e :: rest).length := List.length_map _
      refine ⟨?_, Nat.zero_le 1, List.cons_ne_nil _ _⟩
      rw [hwork]
      exact Nat.lt_succ_of_le hdocs

omit [Count V] in
theorem Call.length_eraseIdx_lt {pending : List (String × V)} {i : ℕ}
    {e : String × V} (h : pending[i]? = some e) :
    (pending.eraseIdx i).length < pending.length := by
  have hlt := (List.getElem?_eq_some_iff.mp h).1
  rw [List.length_eraseIdx_of_lt hlt]
  omega

/-- Every operation is work done, and adds to the lines no more than the call
was going to create. -/
structure Call.Spent (lines : ℕ) (s : Store V) (k : Call V) (s' : Store V)
    (k' : Call V) : Prop where
  created : s'.lineCount + k'.creates ≤ s.lineCount + k.creates
  work : k'.work lines < k.work lines
  busy : k'.Busy

theorem Call.spent_of_add {c c' : AddCall V} (h : AddCall.Acts s c s' c')
    (hlines : s.lineCount + creates (.add c) ≤ lines) :
    Spent lines s (.add c) s' (.add c') := by
  cases h with
  | getItem req =>
      unfold AddCall.onItem
      split
      · exact ⟨Nat.le_add_right _ _, Nat.succ_pos _, trivial⟩
      · split
        · exact ⟨Nat.le_refl _, Nat.lt_succ_self _, trivial⟩
        · exact ⟨Nat.le_add_right _ _, Nat.succ_pos _, trivial⟩
  | updateStock req item n hs =>
      have hcount := Store.lineCount_updateItem hs
      unfold AddCall.onStockUpdated
      split
      · exact ⟨hcount ▸ Nat.le_add_right _ _, Nat.succ_pos _, trivial⟩
      · split
        · exact ⟨hcount ▸ Nat.le_add_right _ _, Nat.succ_pos _, trivial⟩
        · exact ⟨hcount ▸ Nat.le_refl _, Nat.lt_succ_self _, trivial⟩
  | queryBasket req item uid name =>
      have hle : s.lineCount + 1 ≤ lines := hlines
      have hfound : (s.linesNamed uid name).length ≤ s.lineCount :=
        Store.length_linesNamed_le uid name
      obtain ⟨hwork, hcreates, hbusy⟩ := onBasket_spec req item uid
        (hfound.trans (Nat.le_of_succ_le hle)) (Nat.le_of_add_left_le hle)
      exact ⟨Nat.add_le_add_left hcreates _, hwork, hbusy⟩
  | setLine req uid d autoId hfresh =>
      exact ⟨Store.lineCount_setLine_le uid autoId d, Nat.one_pos, trivial⟩
  | updateLine req uid pending err i hget hs =>
      refine ⟨?_, ?_, busy_settle _ _ _ _⟩
      · rw [creates_settle, Store.lineCount_updateLine hs]
        exact Nat.le_refl _
      · rw [work_settle, Call.work]
        exact length_eraseIdx_lt hget

theorem Call.spent_of_delete {c c' : DeleteCall V}
    (h : DeleteCall.Acts s c s' c') :
    Spent lines s (.delete c) s' (.delete c') := by
  cases h with
  | getLine req =>
      unfold DeleteCall.onLine
      split
      · exact ⟨Nat.le_refl _, Nat.succ_pos _, trivial⟩
      · exact ⟨Nat.le_refl _, Nat.lt_succ_self _, trivial⟩
  | deleteLine req n =>
      have hcount : (s.deleteLine req.uid req.itemID).lineCount ≤
          s.lineCount := Keyed.Coll.length_erase_le _ _
      unfold DeleteCall.onDeleted
      split
      · exact ⟨hcount, Nat.succ_pos _, trivial⟩
      · exact ⟨hcount, Nat.lt_succ_self _, trivial⟩
  | getItem req n ref =>
      unfold DeleteCall.onItem
      split
      · exact ⟨Nat.le_refl _, Nat.succ_pos _, trivial⟩
      · exact ⟨Nat.le_refl _, Nat.lt_succ_self _, trivial⟩
  | updateStock req n ref m hs =>
      exact ⟨Nat.le_of_eq (Store.lineCount_updateItem hs), Nat.one_pos,
        trivial⟩

omit [Count V] in
theorem Call.spent_of_fails (h : Fails s k k') : Spent lines s k s k' := by
  cases h with
  | add h =>
      cases h with
      | getItem | updateStock | queryBasket =>
          exact ⟨Nat.le_add_right _ _, Nat.succ_pos _, trivial⟩
      | setLine => exact ⟨Nat.le_add_right _ _, Nat.one_pos, trivial⟩
      | updateLine req uid pending err i hget =>
          refine ⟨?_, ?_, busy_settle _ _ _ _⟩
          · rw [creates_settle]
            exact Nat.le_refl _
          · rw [work_settle, Call.work]
            exact length_eraseIdx_lt hget
  | delete h => cases h <;> exact ⟨Nat.le_refl _, Nat.succ_pos _, trivial⟩

theorem Call.Served.spent (h : Served s k s' k')
    (hlines : s.lineCount + k.creates ≤ lines) :
    Spent lines s k s' k' := by
  rcases h with h | ⟨rfl, h⟩
  · cases h with
    | add h => exact spent_of_add h hlines
    | delete h => exact spent_of_delete h
  · exact spent_of_fails h

theorem Call.exists_served (s : Store V) (hbusy : k.Busy)
    (h : ¬ k.Finished) : ∃ s' k', Served s k s' k' := by
  have hrefused : ∀ {k'}, Fails s k k' → ∃ s' k', Served s k s' k' :=
    fun hf => ⟨s, _, Or.inr ⟨rfl, hf⟩⟩
  cases k with
  | add c =>
      cases c with
      | getItem req => exact hrefused (.add (.getItem req))
      | updateStock req item n => exact hrefused (.add (.updateStock req item n))
      | queryBasket req item uid name =>
          exact hrefused (.add (.queryBasket req item uid name))
      | setLine req uid d => exact hrefused (.add (.setLine req uid d))
      | updateLines req uid pending err =>
          obtain ⟨e, rest, rfl⟩ := List.exists_cons_of_ne_nil hbusy
          exact hrefused (.add (.updateLine req uid _ err 0 rfl))
      | done | failed => exact absurd trivial h
  | delete c =>
      cases c with
      | getLine req => exact hrefused (.delete (.getLine req))
      | deleteLine req n => exact hrefused (.delete (.deleteLine req n))
      | getItem req n ref => exact hrefused (.delete (.getItem req n ref))
      | updateStock req n ref m =>
          exact hrefused (.delete (.updateStock req n ref m))
      | done | failed => exact absurd trivial h

end Steps

def Bounded {ι : Type} [Fintype ι] (lines : ℕ)
    (c : Config ι (Store V) (Call V)) : Prop :=
  c.balance Store.lineCount (fun _ => Call.creates) ≤ lines ∧
    ∀ i, (c.locals i).Busy

section Runs

variable {ι : Type} [Fintype ι] [DecidableEq ι] {lines : ℕ}
  {c : Config ι (Store V) (Call V)}

theorem Bounded.act (h : Bounded lines c) {i : ι} {s' : Store V} {k' : Call V}
    (hs : Call.Served c.shared (c.locals i) s' k') :
    Bounded lines (c.act i s' k') ∧ k'.work lines <
      (c.locals i).work lines := by
  obtain ⟨hle, hbusy⟩ := h
  have hmine : Call.creates (c.locals i) ≤ ∑ j, Call.creates (c.locals j) :=
    Finset.single_le_sum (f := fun j => Call.creates (c.locals j))
      (fun _ _ => Nat.zero_le _) (Finset.mem_univ i)
  rw [Config.balance] at hle
  have hspent : Call.Spent lines c.shared (c.locals i) s' k' := hs.spent (by omega)
  have hact := c.balance_act Store.lineCount (fun _ => Call.creates) i s' k'
  have hcreated := hspent.created
  refine ⟨⟨?_, fun j => ?_⟩, hspent.work⟩
  · simp only [Config.balance] at hact hle ⊢
    omega
  · by_cases hj : j = i
    · subst hj
      rw [Config.act_self]
      exact hspent.busy
    · rw [Config.act_ne c s' k' hj]
      exact hbusy j

omit [Count V] [DecidableEq ι] in
theorem bounded_of_started {s : Store V} {calls : ι → Call V}
    (hcalls : ∀ i, (calls i).LetThrough) :
    Bounded (s.lineCount + Fintype.card ι) ⟨s, calls⟩ ∧
      ∑ i, (calls i).work (s.lineCount + Fintype.card ι) ≤
        Fintype.card ι * (s.lineCount + Fintype.card ι + 3) := by
  have hstart : ∀ i, (∃ req, calls i = .add (.getItem req)) ∨
      ∃ req, calls i = .delete (.getLine req) := by
    intro i
    rcases hcalls i with ⟨_, _, _, h⟩ | ⟨_, _, _, h⟩
    · exact Or.inl (addItemInBasket_starts h)
    · exact Or.inr (deleteItemFromBasket_starts h)
  refine ⟨⟨Nat.add_le_add_left ?_ _, fun i => ?_⟩, ?_⟩
  · rw [← Finset.card_univ, Finset.card_eq_sum_ones]
    refine Finset.sum_le_sum fun i _ => ?_
    rcases hstart i with ⟨req, hi⟩ | ⟨req, hi⟩ <;> simp [hi, Call.creates]
  · rcases hstart i with ⟨req, hi⟩ | ⟨req, hi⟩ <;> simp [hi, Call.Busy]
  · rw [← Nat.nsmul_eq_mul, ← Finset.card_univ]
    refine Finset.sum_le_card_nsmul _ _ _ fun i _ => ?_
    rcases hstart i with ⟨req, hi⟩ | ⟨req, hi⟩
    · rw [hi, Call.work]
    · have hpos : 0 < Finset.card (Finset.univ : Finset ι) :=
        Finset.card_pos.mpr ⟨i, Finset.mem_univ i⟩
      rw [hi, Call.work]
      omega

/-- Any calls the handlers let through, their operations answered in any order
and in either way. There are never more answers than `n * (lines + n + 3)` for
`n` calls, and what has not finished by then can go on: so they all end. -/
theorem calls_end {s : Store V} {calls : ι → Call V}
    (hcalls : ∀ i, (calls i).LetThrough) {n : ℕ}
    (hrun : RunIn (fun _ => Call.Served) n ⟨s, calls⟩ c) :
    n ≤ Fintype.card ι * (s.lineCount + Fintype.card ι + 3) ∧
      ∀ i, ¬ (c.locals i).Finished →
        ∃ s' k', Call.Served c.shared (c.locals i) s' k' := by
  obtain ⟨hbounded, hwork⟩ := bounded_of_started (s := s) hcalls
  obtain ⟨⟨-, hbusy⟩, hle⟩ := hrun.le_balance
    (I := Bounded (s.lineCount + Fintype.card ι)) (fun _ => 0)
    (fun _ => Call.work (s.lineCount + Fintype.card ι))
    (fun d i s' k' hd hs => by simpa using hd.act hs) hbounded
  simp only [Config.balance, Nat.zero_add] at hle
  exact ⟨by omega, fun i => Call.exists_served c.shared (hbusy i)⟩

end Runs

def addAndRemove (i : Bool) : Call ℤ :=
  bif i then .add (.getItem ⟨"cam", "photo", camera, 2, some "ann"⟩)
  else .delete (.getLine ⟨"ann", "l", some "photo", some "cam"⟩)

theorem addAndRemove_letThrough (i : Bool) : (addAndRemove i).LetThrough := by
  have hphoto : docPath (.str "photo") = some "photo" :=
    docPath_str (by decide)
  have hcam : docPath (.str "cam") = some "cam" := docPath_str (by decide)
  have hline : docPath (.str "l") = some "l" := docPath_str (by decide)
  cases i with
  | true =>
      refine Or.inl ⟨some ⟨.str "cam", .str "photo", 2⟩, some "ann",
        .undefined, ?_⟩
      simp only [addItemInBasket, hphoto, hcam]
      rfl
  | false =>
      refine Or.inr ⟨some ⟨.str "l", .str "photo", .str "cam"⟩, some "ann",
        .undefined, ?_⟩
      simp only [deleteItemFromBasket, hphoto, hcam, hline]
      rfl

/-- Eight answers, and twelve there could have been at most. -/
theorem calls_end_cameras :
    ∃ n c, RunIn (fun _ => Call.Served) n
        ⟨(cameras (3 : ℤ)).setLine "ann" "l" (cameraLine 1), addAndRemove⟩ c ∧
      (∀ i, (c.locals i).Finished) ∧ n ≤ 12 := by
  obtain ⟨c, hrun, hfin⟩ : ∃ c, RunIn (fun _ => Call.Served) _
      ⟨(cameras (3 : ℤ)).setLine "ann" "l" (cameraLine 1), addAndRemove⟩ c ∧
      ∀ i, (c.locals i).Finished :=
    exists_runIn_of_play (fun _ => Call.act? fun _ _ => True)
      (fun _ _ _ _ _ _ h => Or.inl (Call.acts_of_act? h).1)
      [(true, "", 0), (true, "", 0), (false, "", 0), (true, "", 0),
        (true, "", 0), (false, "", 0), (false, "", 0), (false, "", 0)]
      (by decide +kernel)
  exact ⟨_, c, hrun, hfin, (calls_end addAndRemove_letThrough hrun).1⟩

end PhoRent
