import PhoRent.Functions.AddItem

/-!
# `deleteItemFromBasket`

The second callable, modelled the same way: read the line, delete it, read the
item's stock document, write the new count there. The caller is looked at in
the handler itself here, and so is the id of the line; the two ids that lead
to the stock document are looked at when the line has gone already.
-/

namespace PhoRent

structure DeleteData where
  itemID : Js.Value
  categoryID : Js.Value
  dbItemID : Js.Value

/-- What the handler's callbacks close over: `itemID` and `uid`, and the two
ids as `doc()` will take them. -/
structure DeleteReq where
  uid : String
  itemID : String
  categoryID : Option String
  dbItemID : Option String
  deriving DecidableEq, Repr

/-- The stock document the argument leads to. -/
def DeleteReq.ref? (req : DeleteReq) : Option ItemRef :=
  match req.categoryID, req.dbItemID with
  | some c, some i => some ⟨c, i⟩
  | _, _ => none

inductive DeleteCall (V : Type)
  | getLine (req : DeleteReq)
  | deleteLine (req : DeleteReq) (itemCount : V)
  | getItem (req : DeleteReq) (itemCount : V) (ref : ItemRef)
  | updateStock (req : DeleteReq) (itemCount : V) (ref : ItemRef)
      (newCount : V)
  | done (req : DeleteReq) (itemCount : V)
  | failed (req : DeleteReq) (e : JsError)

namespace DeleteCall

variable {V : Type} [Count V]

/-- `doc => …` of the basket line. -/
def onLine (req : DeleteReq) : Option (LineDoc V) → DeleteCall V
  | none => .failed req (.typeError "count")
  | some item => .deleteLine req item.count

/-- `() => …` of the deletion. -/
def onDeleted (req : DeleteReq) (itemCount : V) : DeleteCall V :=
  match req.ref? with
  | none => .failed req .documentPath
  | some ref => .getItem req itemCount ref

/-- `snapshot => …` of the stock document. -/
def onItem (req : DeleteReq) (itemCount : V) (ref : ItemRef) :
    Option (ItemDoc V) → DeleteCall V
  | none => .failed req (.typeError "count")
  | some item => .updateStock req itemCount ref (Count.add item.count itemCount)

def step (t : Turn) (s : Store V) : DeleteCall V → Store V × DeleteCall V
  | .getLine req =>
      if t.ok then (s, onLine req (s.line req.uid req.itemID))
      else (s, .failed req (.rejected .getLine))
  | .deleteLine req n =>
      if t.ok then (s.deleteLine req.uid req.itemID, onDeleted req n)
      else (s, .failed req (.rejected .deleteLine))
  | .getItem req n ref =>
      if t.ok then (s, onItem req n ref (s.items ref))
      else (s, .failed req (.rejected .getItem))
  | .updateStock req n ref m =>
      match if t.ok then s.updateItem ref m else none with
      | some s' => (s', .done req n)
      | none => (s, .failed req (.rejected .updateStock))
  | .done req n => (s, .done req n)
  | .failed req e => (s, .failed req e)

def Finished : DeleteCall V → Prop
  | .done _ _ | .failed _ _ => True
  | _ => False

instance : DecidablePred (Finished (V := V))
  | .done _ _ | .failed _ _ => .isTrue trivial
  | .getLine _ | .deleteLine _ _ | .getItem _ _ _ | .updateStock _ _ _ _ =>
      .isFalse id

/-! ## What a step can do -/

inductive Acts (s : Store V) : DeleteCall V → Store V → DeleteCall V → Prop
  | getLine (req : DeleteReq) :
      Acts s (.getLine req) s (onLine req (s.line req.uid req.itemID))
  | deleteLine (req : DeleteReq) (n : V) :
      Acts s (.deleteLine req n) (s.deleteLine req.uid req.itemID)
        (onDeleted req n)
  | getItem (req : DeleteReq) (n : V) (ref : ItemRef) :
      Acts s (.getItem req n ref) s (onItem req n ref (s.items ref))
  | updateStock (req : DeleteReq) (n : V) (ref : ItemRef) (m : V)
      {s' : Store V} (h : s.updateItem ref m = some s') :
      Acts s (.updateStock req n ref m) s' (.done req n)

inductive Fails : DeleteCall V → DeleteCall V → Prop
  | getLine (req : DeleteReq) :
      Fails (.getLine req) (.failed req (.rejected .getLine))
  | deleteLine (req : DeleteReq) (n : V) :
      Fails (.deleteLine req n) (.failed req (.rejected .deleteLine))
  | getItem (req : DeleteReq) (n : V) (ref : ItemRef) :
      Fails (.getItem req n ref) (.failed req (.rejected .getItem))
  | updateStock (req : DeleteReq) (n : V) (ref : ItemRef) (m : V) :
      Fails (.updateStock req n ref m) (.failed req (.rejected .updateStock))

theorem step_cases {t : Turn} {s s' : Store V} {c c' : DeleteCall V}
    (h : step t s c = (s', c')) :
    Acts s c s' c' ∨ (s' = s ∧ Fails c c') ∨ (s' = s ∧ c' = c) := by
  cases c with
  | getLine req =>
      rw [step] at h
      split at h <;> obtain ⟨rfl, rfl⟩ := Prod.mk.inj h
      · exact Or.inl (.getLine req)
      · exact Or.inr (Or.inl ⟨rfl, .getLine req⟩)
  | deleteLine req n =>
      rw [step] at h
      split at h <;> obtain ⟨rfl, rfl⟩ := Prod.mk.inj h
      · exact Or.inl (.deleteLine req n)
      · exact Or.inr (Or.inl ⟨rfl, .deleteLine req n⟩)
  | getItem req n ref =>
      rw [step] at h
      split at h <;> obtain ⟨rfl, rfl⟩ := Prod.mk.inj h
      · exact Or.inl (.getItem req n ref)
      · exact Or.inr (Or.inl ⟨rfl, .getItem req n ref⟩)
  | updateStock req n ref m =>
      rw [step] at h
      split at h
      · next s₁ hs =>
          obtain ⟨rfl, rfl⟩ := Prod.mk.inj h
          split at hs
          · exact Or.inl (.updateStock req n ref m hs)
          · cases hs
      · obtain ⟨rfl, rfl⟩ := Prod.mk.inj h
        exact Or.inr (Or.inl ⟨rfl, .updateStock req n ref m⟩)
  | done req n =>
      obtain ⟨rfl, rfl⟩ := Prod.mk.inj h
      exact Or.inr (Or.inr ⟨rfl, rfl⟩)
  | failed req e =>
      obtain ⟨rfl, rfl⟩ := Prod.mk.inj h
      exact Or.inr (Or.inr ⟨rfl, rfl⟩)

end DeleteCall

end PhoRent
