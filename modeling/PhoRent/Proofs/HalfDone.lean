import PhoRent.Functions.Alone
import PhoRent.Functions.Play
import PhoRent.Store.Units

/-!
# Calls that fail half done

A chain that fails stops where it is. What it has written by then stays
written: the stock of an add whose caller turns out not to be signed in, the
deleted line of a removal whose item cannot be found. This file finds, for
each function, the failures that come after a write, and shows that the other
ones leave the store as it was.
-/

namespace PhoRent

variable {V : Type} [Count V]

/-- If the call has failed, the stock and the baskets are as in `s`. -/
def KeptIfFailed (s : Store V) (z : Store V × Call V) : Prop :=
  z.2.error?.isSome = true → z.1.items = s.items ∧ z.1.basket = s.basket

/-- A failed call leaves the store as it was: every complete run of the chain
the handler has started does, and no chain is started where the handler
throws. -/
def LeavesStore (a : Answers) (s : Store V) (h : Handled V) : Prop :=
  ∀ v call, h = .returned v call → Ends a (s, call) (KeptIfFailed s)

/-! ## Adds -/

section Add

variable {a : Answers} {s : Store V} {req : AddReq V} {item : ItemDoc V}

/-- The chain fails at the caller, the query or the basket writes. -/
def AddReq.LineFails (req : AddReq V) (a : Answers) (s : Store V)
    (item : ItemDoc V) : Prop :=
  match req.uid, item.name with
  | some uid, some name =>
      a.queryBasket = false ∨
      (s.linesNamed uid name = [] ∧
        (Count.storable req.elementCount = false ∨ a.setLine = false)) ∨
      ∃ e ∈ s.linesNamed uid name, a.updateLine e.1 = false
  | _, _ => True

/-- The basket writes carried out all put back the counts that are there. -/
def AddReq.LinesKept (req : AddReq V) (a : Answers) (s : Store V)
    (item : ItemDoc V) : Prop :=
  ∀ uid name, req.uid = some uid → item.name = some name →
    a.queryBasket = true → ∀ e ∈ s.linesNamed uid name,
      a.updateLine e.1 = true → Count.add e.2.count req.elementCount = e.2.count

def AddReq.FailsLate (req : AddReq V) (a : Answers) (s : Store V) : Prop :=
  ∃ item, a.getItem = true ∧ s.items req.ref = some item ∧
    Count.ge item.count req.elementCount = true ∧ a.updateStock = true ∧
    req.LineFails a s item

/-- Whatever it writes is what is there already. -/
def AddReq.WritesNothing (req : AddReq V) (a : Answers) (s : Store V) : Prop :=
  ∀ item, s.items req.ref = some item →
    Count.sub item.count req.elementCount = item.count ∧ req.LinesKept a s item

theorem linesUpdated_eq_iff {s₁ s' : Store V} {uid name : String} {v : V}
    (h : LinesUpdated a uid
      ((s₁.linesNamed uid name).map fun e => (e.1, Count.add e.2.count v))
      s₁ s') :
    (∀ u l, s'.line u l = s₁.line u l) ↔
      ∀ e ∈ s₁.linesNamed uid name, a.updateLine e.1 = true →
        Count.add e.2.count v = e.2.count := by
  obtain ⟨hdo, hkeep⟩ := h
  constructor
  · intro heq e he hae
    have hd := (Store.mem_linesNamed.mp he).1
    have hnew := hdo _ (List.mem_map_of_mem he) hae
    rw [heq, hd, Option.map_some] at hnew
    exact (congrArg (fun d : LineDoc V => d.count)
      (Option.some.inj hnew)).symm
  · intro hadd u l
    by_cases hl : u = uid ∧ a.updateLine l = true ∧
        ∃ d, (l, d) ∈ s₁.linesNamed uid name
    · obtain ⟨rfl, hal, d, hm⟩ := hl
      have hd := (Store.mem_linesNamed.mp hm).1
      have hnew := hdo _ (List.mem_map_of_mem hm) hal
      rw [hadd _ hm hal] at hnew
      rw [hnew, hd]
      rfl
    · refine hkeep u l fun hu e he hel => ?_
      obtain ⟨e', he', rfl⟩ := List.mem_map.mp he
      obtain rfl : e'.1 = l := hel
      cases hal : a.updateLine e'.1 with
      | false => rfl
      | true => exact absurd ⟨hu, hal, e'.2, he'⟩ hl

omit [Count V] in
theorem keptIfFailed_add {s' : Store V} {e : JsError} :
    KeptIfFailed s (s', .add (.failed req e)) ↔
      s'.items = s.items ∧ s'.basket = s.basket := by
  simp [KeptIfFailed, Call.error?]

omit [Count V] in
theorem keptIfFailed_done {s' : Store V} :
    KeptIfFailed s (s', .add (.done req)) := by
  simp [KeptIfFailed, Call.error?]

theorem ends_updateLines_kept (a : Answers) (req : AddReq V) (v : V)
    {s₁ : Store V} {uid name : String}
    (hb : s₁.basket = s.basket) (hne : s₁.linesNamed uid name ≠ []) :
    Ends a (s₁, .add (.updateLines req uid ((s₁.linesNamed uid name).map
        fun e => (e.1, Count.add e.2.count v)) none)) (KeptIfFailed s) ↔
      ((∃ e ∈ s₁.linesNamed uid name, a.updateLine e.1 = false) →
        s₁.items = s.items ∧ ∀ e ∈ s₁.linesNamed uid name,
          a.updateLine e.1 = true → Count.add e.2.count v = e.2.count) := by
  have hne' : (s₁.linesNamed uid name).map
      (fun e => (e.1, Count.add e.2.count v)) ≠ [] := by simpa using hne
  have hnodup : (((s₁.linesNamed uid name).map
      fun e => (e.1, Count.add e.2.count v)).map Prod.fst).Nodup := by
    rw [List.map_map]
    exact s₁.linesNamed_nodup uid name
  have hl : ∀ e ∈ (s₁.linesNamed uid name).map
      (fun e => (e.1, Count.add e.2.count v)), s₁.line uid e.1 ≠ none := by
    intro e he
    obtain ⟨e', he', rfl⟩ := List.mem_map.mp he
    simp [(Store.mem_linesNamed.mp he').1]
  have hend : Ends a _ _ := ends_updateLines a req none hne' hnodup hl
  have hbad : ∀ z : Store V × Call V, UpdatesEnd a uid
      ((s₁.linesNamed uid name).map fun e => (e.1, Count.add e.2.count v))
      none s₁ z →
      (z.2.error?.isSome = true ↔
        ∃ e ∈ s₁.linesNamed uid name, a.updateLine e.1 = false) ∧
      (z.1.items = s.items ∧ z.1.basket = s.basket ↔
        s₁.items = s.items ∧ ∀ e ∈ s₁.linesNamed uid name,
          a.updateLine e.1 = true → Count.add e.2.count v = e.2.count) := by
    intro z hz
    refine ⟨?_, ?_⟩
    · rw [hz.error]
      simp
    · rw [hz.items, ← hb, Store.basket_eq_iff, linesUpdated_eq_iff hz.lines]
  constructor
  · intro h hfail
    obtain ⟨z, hr, hz⟩ := exists_updatesEnd a req uid hne' hl none
    obtain ⟨herr, hsame⟩ := hbad z (hend z hr hz)
    exact hsame.mp (h z hr hz (herr.mpr hfail))
  · intro h z hr hz herr'
    obtain ⟨herr, hsame⟩ := hbad z (hend z hr hz)
    exact hsame.mpr (h (herr.mp herr'))

theorem ends_onStockUpdated_kept {s₁ : Store V} (hb : s₁.basket = s.basket) :
    Ends a (s₁, .add (AddCall.onStockUpdated req item)) (KeptIfFailed s) ↔
      (req.LineFails a s₁ item →
        s₁.items = s.items ∧ req.LinesKept a s₁ item) := by
  rcases huid : req.uid with _ | uid
  · simp only [AddCall.onStockUpdated, huid, ends_add_failed, keptIfFailed_add,
      hb, AddReq.LineFails, AddReq.LinesKept]
    simp
  rcases hname : item.name with _ | name
  · simp only [AddCall.onStockUpdated, huid, hname, ends_add_failed,
      keptIfFailed_add, hb, AddReq.LineFails, AddReq.LinesKept]
    simp
  have hkept : req.LinesKept a s₁ item ↔ (a.queryBasket = true →
      ∀ e ∈ s₁.linesNamed uid name, a.updateLine e.1 = true →
        Count.add e.2.count req.elementCount = e.2.count) := by
    simp [AddReq.LinesKept, huid, hname]
  simp only [AddCall.onStockUpdated, huid, hname, ends_add_queryBasket,
    AddReq.LineFails, hkept]
  cases hq : a.queryBasket with
  | false => simp [keptIfFailed_add, hb]
  | true =>
      cases hdocs : s₁.linesNamed uid name with
      | nil =>
          simp only [if_true, AddCall.onBasket]
          cases hst : Count.storable req.elementCount with
          | false => simp [keptIfFailed_add, hb]
          | true =>
              simp only [if_true, ends_add_setLine]
              cases hset : a.setLine with
              | false => simp [keptIfFailed_add, hb]
              | true => simp [keptIfFailed_done]
      | cons e rest =>
          have hne : s₁.linesNamed uid name ≠ [] := by simp [hdocs]
          have h := ends_updateLines_kept a req req.elementCount hb hne
          rw [hdocs] at h
          simp only [if_true, AddCall.onBasket, h]
          simp

omit [Count V] in
/-- The stock write leaves the stock as it is if and only if it writes the
count that is there. -/
theorem updateItem_items_iff {s₁ : Store V} {ref : ItemRef} {n : V}
    (hi : s.items ref = some item) (hu : s.updateItem ref n = some s₁) :
    s₁.items = s.items ↔ n = item.count := by
  obtain ⟨item', hi', rfl⟩ := Store.updateItem_eq_some.mp hu
  obtain rfl : item' = item := Option.some.inj (hi'.symm.trans hi)
  rw [Function.update_eq_iff]
  simp only [hi, Option.some.injEq, ne_eq, implies_true, and_true]
  constructor
  · exact fun h => congrArg (fun d : ItemDoc V => d.count) h
  · rintro rfl
    rfl

omit [Count V] in
theorem keptIfFailed_self (e : JsError) :
    KeptIfFailed s (s, .add (.failed req e)) :=
  keptIfFailed_add.mpr ⟨rfl, rfl⟩

/-- The rest of the chain once the check has let the count through. -/
theorem ends_updateStock_kept (hi : s.items req.ref = some item) :
    Ends a (s, .add (.updateStock req item
        (Count.sub item.count req.elementCount))) (KeptIfFailed s) ↔
      (a.updateStock = true → req.LineFails a s item →
        Count.sub item.count req.elementCount = item.count ∧
          req.LinesKept a s item) := by
  rw [ends_add_updateStock]
  cases hup : a.updateStock with
  | false => simp [keptIfFailed_self]
  | true =>
  obtain ⟨s₁, hs₁⟩ : ∃ s₁, s.updateItem req.ref
      (Count.sub item.count req.elementCount) = some s₁ := by
    rw [Store.updateItem, hi]
    exact ⟨_, rfl⟩
  have hb := Store.updateItem_basket hs₁
  simp only [if_true, hs₁, ends_onStockUpdated_kept hb,
    updateItem_items_iff hi hs₁, AddReq.LineFails, AddReq.LinesKept,
    Store.updateItem_linesNamed hs₁, true_imp_iff]

/-- All failed runs of an add leave the store as it was, unless the add fails
late and has written something new. -/
theorem add_kept_iff : Ends a (s, .add (.getItem req)) (KeptIfFailed s) ↔
    ¬ req.FailsLate a s ∨ req.WritesNothing a s := by
  rw [ends_add_getItem, AddReq.FailsLate, AddReq.WritesNothing]
  cases hg : a.getItem with
  | false => simp [keptIfFailed_self]
  | true =>
  cases hi : s.items req.ref with
  | none => simp [AddCall.onItem, keptIfFailed_self]
  | some item =>
  cases hge : Count.ge item.count req.elementCount with
  | false => simp [AddCall.onItem, hge, keptIfFailed_self]
  | true =>
      simp only [if_true, AddCall.onItem, hge, ends_updateStock_kept hi]
      simp only [Option.some.injEq, true_and, exists_eq_left', hge,
        forall_eq', ← imp_iff_not_or, and_imp]

end Add

/-! ## Removals -/

section Delete

variable {a : Answers} {s : Store V} {req : DeleteReq}

def DeleteReq.FailsLate (req : DeleteReq) (a : Answers) (s : Store V) : Prop :=
  s.line req.uid req.itemID ≠ none ∧ a.getLine = true ∧
    a.deleteLine = true ∧
    ∀ ref, req.ref? = some ref →
      a.getItem = false ∨ s.items ref = none ∨ a.updateStock = false

omit [Count V] in
theorem keptIfFailed_delete {s' : Store V} {e : JsError} :
    KeptIfFailed s (s', .delete (.failed req e)) ↔
      s'.items = s.items ∧ s'.basket = s.basket := by
  simp [KeptIfFailed, Call.error?]

/-- The rest of the chain once the line is gone: any failure shows it. -/
theorem ends_onDeleted_kept {d : LineDoc V} {n : V}
    (hd : s.line req.uid req.itemID = some d) :
    Ends a (s.deleteLine req.uid req.itemID,
        .delete (DeleteCall.onDeleted req n)) (KeptIfFailed s) ↔
      ∃ ref, req.ref? = some ref ∧ a.getItem = true ∧ s.items ref ≠ none ∧
        a.updateStock = true := by
  have hgone : ∀ e : JsError, ¬ KeptIfFailed s
      (s.deleteLine req.uid req.itemID, .delete (.failed req e)) := by
    intro e h
    have hl := Store.basket_eq_iff.mp (keptIfFailed_delete.mp h).2 req.uid
      req.itemID
    rw [Store.line_deleteLine, if_pos ⟨rfl, rfl⟩, hd] at hl
    cases hl
  rw [DeleteCall.onDeleted]
  cases href : req.ref? with
  | none => simp [hgone]
  | some ref =>
  simp only [ends_delete_getItem, Option.some.injEq, exists_eq_left']
  cases hgi : a.getItem with
  | false => simp [hgone]
  | true =>
  simp only [if_true, Store.deleteLine_items]
  cases hi : s.items ref with
  | none => simp [DeleteCall.onItem, hgone]
  | some item =>
  simp only [DeleteCall.onItem, ends_delete_updateStock]
  cases hup : a.updateStock with
  | false => simp [hgone]
  | true =>
      have hu : (s.deleteLine req.uid req.itemID).updateItem ref
          (Count.add item.count n) ≠ none := by
        simp [Store.updateItem, hi]
      obtain ⟨s₁, hs₁⟩ := Option.ne_none_iff_exists'.mp hu
      simp [hs₁, KeptIfFailed, Call.error?]

theorem delete_kept_iff :
    Ends a (s, .delete (.getLine req)) (KeptIfFailed s) ↔
      ¬ req.FailsLate a s := by
  have hsame : ∀ e : JsError, KeptIfFailed s (s, .delete (.failed req e)) :=
    fun e => keptIfFailed_delete.mpr ⟨rfl, rfl⟩
  rw [ends_delete_getLine, DeleteReq.FailsLate]
  cases hg : a.getLine with
  | false => simp [hsame]
  | true =>
  cases hd : s.line req.uid req.itemID with
  | none => simp [DeleteCall.onLine, hsame]
  | some d =>
  simp only [if_true, DeleteCall.onLine, ends_delete_deleteLine]
  cases hdel : a.deleteLine with
  | false => simp [hsame]
  | true =>
      simp only [if_true, ends_onDeleted_kept hd]
      simp

end Delete

/-- A failed call leaves stock and baskets as they were exactly where it does
not fail after its first write, or where an add writes back what is there. -/
theorem leaves_store_iff {V : Type} [Count V] :
    (∀ (data : Option (AddData V)) (auth : Option String) (a : Answers)
        (s : Store V),
      LeavesStore a s (addItemInBasket data auth) ↔
        ∀ v req, addItemInBasket data auth = .returned v (.add (.getItem req)) →
          ¬ req.FailsLate a s ∨ req.WritesNothing a s) ∧
    (∀ (data : Option DeleteData) (auth : Option String) (a : Answers)
        (s : Store V),
      LeavesStore a s (deleteItemFromBasket data auth) ↔
        ∀ v req, deleteItemFromBasket (V := V) data auth =
            .returned v (.delete (.getLine req)) → ¬ req.FailsLate a s) := by
  constructor
  · intro data auth a s
    constructor
    · exact fun h v req he => add_kept_iff.mp (h v _ he)
    · intro h v call he
      obtain ⟨req, rfl⟩ := addItemInBasket_starts he
      exact add_kept_iff.mpr (h v req he)
  · intro data auth a s
    constructor
    · exact fun h v req he => delete_kept_iff.mp (h v _ he)
    · intro h v call he
      obtain ⟨req, rfl⟩ := deleteItemFromBasket_starts he
      exact delete_kept_iff.mpr (h v req he)

/-- Somebody who is not signed in asks for a camera; all operations are
carried out. -/
theorem stock_taken_unauthenticated :
    ¬ LeavesStore .all (cameras 5)
      (addItemInBasket (some ⟨.str "cam", .str "photo", (1 : ℤ)⟩) none) := by
  intro h
  have he : addItemInBasket (some ⟨.str "cam", .str "photo", (1 : ℤ)⟩) none =
      .returned .undefined
        (.add (.getItem ⟨"cam", "photo", camera, 1, none⟩)) := by
    have hc : docPath (.str "photo") = some "photo" := by decide +kernel
    have hi : docPath (.str "cam") = some "cam" := by decide +kernel
    simp only [addItemInBasket, hc, hi, Js.Value.toStr]
    rfl
  rcases add_kept_iff.mp (h _ _ he) with hlate | hnothing
  · exact hlate ⟨_, rfl, rfl, rfl, rfl, trivial⟩
  · exact absurd (hnothing _ rfl).1 (by decide)

end PhoRent
