import PhoRent.Functions.Play
import PhoRent.Store.Units

/-!
# Where a call can stand

The theorems about many calls at once are about calls made in good order: the
caller is signed in, the item exists and has a name, and counts are
integers. Such a call can only be suspended at a few points, with locals that
fit together. This file lists the points, shows that every action leads from
one to another, and says what each action does to the units.
-/

namespace PhoRent

def Store.Named {V : Type} (s : Store V) (ref : ItemRef) (name : String) :
    Prop :=
  ∃ item, s.items ref = some item ∧ item.name = some name

/-- Every item has a name, no two share one, and a basket line carries the
name of the item it records. -/
structure Store.WellNamed {V : Type} (s : Store V) : Prop where
  named : ∀ ref item, s.items ref = some item → ∃ name, item.name = some name
  distinct : ∀ ref ref' item item', s.items ref = some item →
    s.items ref' = some item' → item.name = item'.name → ref = ref'
  line : ∀ uid lineID d, s.line uid lineID = some d →
    ∃ item, s.items d.ref = some item ∧ d.name = item.name

theorem Store.WellNamed.name_iff {V : Type} {s : Store V} (h : s.WellNamed)
    {ref : ItemRef} {name uid lineID : String} {d : LineDoc V}
    (hs : s.Named ref name) (hd : s.line uid lineID = some d) :
    d.name = some name ↔ d.ref = ref := by
  obtain ⟨item, hi, hn⟩ := hs
  obtain ⟨item', hi', hn'⟩ := h.line uid lineID d hd
  constructor
  · intro hname
    refine h.distinct _ _ _ _ hi' hi ?_
    rw [← hn', hname, hn]
  · intro href
    rw [href, hi] at hi'
    rw [hn', ← Option.some.inj hi', hn]

def Store.AtMostOneLine {V : Type} (s : Store V) (uid : String)
    (ref : ItemRef) : Prop :=
  ∀ l l' d d', s.line uid l = some d → s.line uid l' = some d' →
    d.ref = ref → d'.ref = ref → l = l'

/-- In the caller's basket a line has the name if and only if it records the
item. -/
def Store.NamesLines {V : Type} (s : Store V) (uid : String)
    (ref : ItemRef) (name : String) : Prop :=
  ∀ l d, s.line uid l = some d → (d.name = some name ↔ d.ref = ref)

/-- Where no two lines of the user have the name, the query finds one line or
none. -/
theorem Store.linesNamed_cases {V : Type} {s : Store V} {uid name : String}
    (h : ∀ l l' d d', s.line uid l = some d → d.name = some name →
      s.line uid l' = some d' → d'.name = some name → l = l') :
    s.linesNamed uid name = [] ∨ ∃ l d, s.line uid l = some d ∧
      d.name = some name ∧ s.linesNamed uid name = [(l, d)] := by
  have hmem : ∀ e ∈ s.linesNamed uid name,
      s.line uid e.1 = some e.2 ∧ e.2.name = some name :=
    fun e he => Store.mem_linesNamed.mp he
  have hnodup := s.linesNamed_nodup uid name
  cases hq : s.linesNamed uid name with
  | nil => exact Or.inl rfl
  | cons e rest =>
      rw [hq] at hmem hnodup
      obtain ⟨hl, hn⟩ := hmem e (by simp)
      refine Or.inr ⟨e.1, e.2, hl, hn, ?_⟩
      cases rest with
      | nil => rfl
      | cons e' rest =>
          obtain ⟨hl', hn'⟩ := hmem e' (by simp)
          have heq := h _ _ _ _ hl hn hl' hn'
          simp [heq] at hnodup

theorem Store.AtMostOneLine.linesNamed {V : Type} {s : Store V}
    {uid name : String} {ref : ItemRef} (h : s.AtMostOneLine uid ref)
    (hnames : s.NamesLines uid ref name) :
    s.linesNamed uid name = [] ∨
      ∃ l d, s.line uid l = some d ∧ d.ref = ref ∧
        s.linesNamed uid name = [(l, d)] := by
  have honly : ∀ l l' d d', s.line uid l = some d → d.name = some name →
      s.line uid l' = some d' → d'.name = some name → l = l' :=
    fun l l' d d' hl hn hl' hn' => h l l' d d' hl hl'
      ((hnames l d hl).mp hn) ((hnames l' d' hl').mp hn')
  refine (Store.linesNamed_cases honly).imp_right fun hex => ?_
  obtain ⟨l, d, hl, hn, hq⟩ := hex
  exact ⟨l, d, hl, (hnames l d hl).mp hn, hq⟩

theorem cameras_wellNamed (n : ℤ) : (cameras n).WellNamed := by
  have hitem : ∀ ref item, (cameras n).items ref = some item →
      ref = camera ∧ item.name = some "Camera" := by
    intro ref item hi
    simp only [cameras] at hi
    split at hi
    · next href => exact ⟨href, by rw [← Option.some.inj hi]⟩
    · cases hi
  refine ⟨fun ref item hi => ⟨_, (hitem ref item hi).2⟩, ?_, ?_⟩
  · intro ref ref' item item' hi hi' _
    rw [(hitem ref item hi).1, (hitem ref' item' hi').1]
  · intro uid l d hd
    cases hd

/-- What a call of `addItemInBasket` by a signed-in user closes over. -/
def AddReq.of {V : Type} (ref : ItemRef) (uid : String) (n : V) : AddReq V :=
  ⟨ref.itemID, ref.categoryID, ref, n, some uid⟩

@[simp] theorem AddReq.of_ref {V : Type} (ref : ItemRef) (uid : String)
    (n : V) : (AddReq.of ref uid n).ref = ref := rfl

def ItemRef.Proper (ref : ItemRef) : Prop :=
  DocID ref.categoryID ∧ DocID ref.itemID

def Store.LineIDs (s : Store ℤ) : Prop :=
  ∀ u l d, s.line u l = some d → DocID l

theorem camera_proper : camera.Proper := ⟨by decide, by decide⟩

theorem addItemInBasket_of {V : Type} {ref : ItemRef} (h : ref.Proper)
    (uid : String) (n : V) :
    addItemInBasket (some ⟨.str ref.itemID, .str ref.categoryID, n⟩)
      (some uid) = .returned .undefined (.add (.getItem (.of ref uid n))) := by
  simp only [addItemInBasket, docPath_str h.1, docPath_str h.2]
  rfl

/-- What a call of `deleteItemFromBasket` closes over, the arguments taken
from a line of the item. -/
def DeleteReq.of (ref : ItemRef) (uid lineID : String) : DeleteReq :=
  ⟨uid, lineID, some ref.categoryID, some ref.itemID⟩

theorem DeleteReq.onDeleted_of (ref : ItemRef) (uid lineID : String) (k : ℤ) :
    DeleteCall.onDeleted (.of ref uid lineID) k =
      .getItem (.of ref uid lineID) k ref := rfl

/-! ## Positions -/

/-- The points where an add of `n` units of an item with this name can be
suspended. -/
inductive AddAt (ref : ItemRef) (uid : String) (n : ℤ) (name : String) :
    AddCall ℤ → Prop
  | getItem : AddAt ref uid n name (.getItem (.of ref uid n))
  | updateStock {item : ItemDoc ℤ} (hname : item.name = some name)
      (hn : n ≤ item.count) :
      AddAt ref uid n name
        (.updateStock (.of ref uid n) item (item.count - n))
  | queryBasket {item : ItemDoc ℤ} (hname : item.name = some name) :
      AddAt ref uid n name (.queryBasket (.of ref uid n) item uid name)
  | setLine {d : LineDoc ℤ} (hname : d.name = some name) (href : d.ref = ref)
      (hcount : d.count = n) :
      AddAt ref uid n name (.setLine (.of ref uid n) uid d)
  | updateLines {pending : List (String × ℤ)} :
      AddAt ref uid n name (.updateLines (.of ref uid n) uid pending none)
  | done : AddAt ref uid n name (.done (.of ref uid n))
  | refused {e : JsError} : AddAt ref uid n name (.failed (.of ref uid n) e)

/-- The points where the removal of a line with `k` units of an item can be
suspended. -/
inductive DeleteAt (ref : ItemRef) (uid lineID : String) (k : ℤ) :
    DeleteCall ℤ → Prop
  | getLine : DeleteAt ref uid lineID k (.getLine (.of ref uid lineID))
  | deleteLine :
      DeleteAt ref uid lineID k (.deleteLine (.of ref uid lineID) k)
  | getItem :
      DeleteAt ref uid lineID k (.getItem (.of ref uid lineID) k ref)
  | updateStock {m : ℤ} :
      DeleteAt ref uid lineID k (.updateStock (.of ref uid lineID) k ref m)
  | done : DeleteAt ref uid lineID k (.done (.of ref uid lineID) k)
  | gone {e : JsError} :
      DeleteAt ref uid lineID k (.failed (.of ref uid lineID) e)

/-! ## Actions lead from position to position -/

theorem Store.Named.updateItem {V : Type} {s s' : Store V}
    {ref r : ItemRef} {name : String} {n : V} (h : s.Named ref name)
    (hu : s.updateItem r n = some s') : s'.Named ref name := by
  obtain ⟨item, hi, hn⟩ := h
  obtain ⟨old, ho, rfl⟩ := Store.updateItem_eq_some.mp hu
  by_cases hr : ref = r
  · subst hr
    obtain rfl : old = item := Option.some.inj (ho.symm.trans hi)
    exact ⟨{ old with count := n }, by simp, hn⟩
  · exact ⟨item, by simp [hr, hi], hn⟩

theorem Store.updateLine_items {V : Type} {s s' : Store V}
    {uid lineID : String} {n : V} (h : s.updateLine uid lineID n = some s') :
    s'.items = s.items := by
  obtain ⟨d, -, rfl⟩ := Store.updateLine_eq_some.mp h
  rfl

theorem Store.Named.acts {V : Type} [Count V] {s s' : Store V}
    {ref : ItemRef} {name : String} {c c' : Call V} (h : s.Named ref name)
    (ha : Call.Acts s c s' c') : s'.Named ref name := by
  cases ha with
  | add ha =>
      cases ha with
      | getItem | queryBasket | setLine => exact h
      | updateStock req item n hu => exact h.updateItem hu
      | updateLine req uid pending err k hk hu =>
          obtain ⟨item, hi, hn⟩ := h
          exact ⟨item, by rw [Store.updateLine_items hu]; exact hi, hn⟩
  | delete ha =>
      cases ha with
      | getLine | deleteLine | getItem => exact h
      | updateStock req n ref m hu => exact h.updateItem hu

theorem AddCall.onItem_of (ref : ItemRef) (uid : String) (n : ℤ)
    (item : ItemDoc ℤ) : AddCall.onItem (.of ref uid n) (some item) =
      if n ≤ item.count then .updateStock (.of ref uid n) item (item.count - n)
      else .failed (.of ref uid n)
        (.https "invalid-argument" (AddCall.refusal item.name)) := by
  simp only [AddCall.onItem, Count.ge_int, decide_eq_true_eq]
  rfl

theorem AddCall.onStockUpdated_of {ref : ItemRef} {uid name : String} {n : ℤ}
    {item : ItemDoc ℤ} (hname : item.name = some name) :
    AddCall.onStockUpdated (.of ref uid n) item =
      .queryBasket (.of ref uid n) item uid name := by
  simp only [AddCall.onStockUpdated, AddReq.of, hname]

theorem AddAt.onItem {s : Store ℤ} {ref : ItemRef} {uid name : String}
    {n : ℤ} (h : s.Named ref name) :
    AddAt ref uid n name
      (AddCall.onItem (.of ref uid n) (s.items ref)) := by
  obtain ⟨item, hi, hn⟩ := h
  rw [hi, AddCall.onItem_of]
  split
  · next hle => exact .updateStock hn hle
  · exact .refused

theorem AddAt.onBasket {ref : ItemRef} {uid name : String} {n : ℤ}
    {item : ItemDoc ℤ} (hname : item.name = some name)
    (docs : List (String × LineDoc ℤ)) :
    AddAt ref uid n name
      (AddCall.onBasket (.of ref uid n) item uid docs) := by
  cases docs with
  | nil =>
      simp only [AddCall.onBasket, Count.storable_int, if_true]
      exact .setLine hname rfl rfl
  | cons e rest => exact .updateLines

theorem AddAt.settle {ref : ItemRef} {uid name : String} {n : ℤ}
    (pending : List (String × ℤ)) :
    AddAt ref uid n name
      (AddCall.settle (.of ref uid n) uid pending none) :=
  AddCall.settle_ind _ .done (fun _ => .refused) .updateLines

theorem AddAt.acts {s s' : Store ℤ} {ref : ItemRef} {uid name : String}
    {n : ℤ} {c c' : AddCall ℤ} (hs : s.Named ref name)
    (h : AddAt ref uid n name c) (ha : AddCall.Acts s c s' c') :
    AddAt ref uid n name c' := by
  cases h with
  | getItem => cases ha; exact .onItem hs
  | updateStock hname hn =>
      cases ha
      rw [AddCall.onStockUpdated_of hname]
      exact .queryBasket hname
  | queryBasket hname => cases ha; exact .onBasket hname _
  | setLine => cases ha; exact .done
  | updateLines => cases ha; exact .settle _
  | done => cases ha
  | refused => cases ha

/-! ## Units on the way -/

def AddCall.taken : AddCall ℤ → ℤ
  | .queryBasket req _ _ _ | .setLine req _ _ | .updateLines req _ _ _
  | .done req => req.elementCount
  | _ => 0

/-- Units an add has placed in a basket, once it is through. -/
def AddCall.placed : AddCall ℤ → ℤ
  | .done req => req.elementCount
  | _ => 0

@[simp] theorem AddCall.taken_onBasket {ref : ItemRef} {uid : String} {n : ℤ}
    {item : ItemDoc ℤ} (docs : List (String × LineDoc ℤ)) :
    (AddCall.onBasket (.of ref uid n) item uid docs).taken = n := by
  cases docs with
  | nil => simp [AddCall.onBasket, AddCall.taken, AddReq.of]
  | cons e rest => rfl

@[simp] theorem AddCall.taken_settle {ref : ItemRef} {uid : String} {n : ℤ}
    (pending : List (String × ℤ)) :
    (AddCall.settle (.of ref uid n) uid pending none).taken = n := by
  rw [AddCall.settle]
  split <;> rfl

end PhoRent
