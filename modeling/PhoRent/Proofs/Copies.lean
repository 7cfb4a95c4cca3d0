import PhoRent.Functions.Play
import PhoRent.Store.Units

/-!
# Lines are copies of the catalogue

The functions only ever write the count of a stock document. What else a stock
document has stays as it is, and an add copies it into the line it makes. So
whatever a call has captured of the catalogue is still there when it writes a
line, and the line is a copy of a document its own two ids lead to.
-/

namespace PhoRent

open Interleave

variable {V : Type}

/-- What an add copies of a stock document: everything but the count. -/
def ItemDoc.copied (item : ItemDoc V) :
    Option String × List (String × FieldValue) :=
  (item.name, item.fields)

/-- The catalogue: the stock documents without their counts. -/
def Store.catalog (s : Store V) (ref : ItemRef) :
    Option (Option String × List (String × FieldValue)) :=
  (s.items ref).map ItemDoc.copied

/-- The stock document two ids of a client lead to. -/
def refOf (categoryID itemID : String) : Option ItemRef := do
  let category ← docPath (.str categoryID)
  let item ← docPath (.str itemID)
  return ⟨category, item⟩

/-- The line's ids lead to a document of the catalogue, and the line is a
copy of it. -/
def Store.Copied (s₀ : Store V) (d : LineDoc V) : Prop :=
  ∃ ref, refOf d.categoryID d.itemID = some ref ∧
    s₀.catalog ref = some d.toItemDoc.copied

/-- The document the handler asked for is the one its arguments lead to. -/
def AddReq.Leads (req : AddReq V) : Prop :=
  refOf req.categoryID req.itemID = some req.ref

/-- What a suspended call has captured is a copy of the catalogue. -/
def Call.Copies (s₀ : Store V) : Call V → Prop
  | .add (.getItem req) => req.Leads
  | .add (.updateStock req item _) | .add (.queryBasket req item _ _) =>
      req.Leads ∧ s₀.catalog req.ref = some item.copied
  | .add (.setLine _ _ d) => s₀.Copied d
  | _ => True

inductive Call.OfHandler : Call V → Prop
  | add (data : AddData V) (auth : Option String) {v : Returned}
      {call : Call V}
      (h : addItemInBasket (some data) auth = .returned v call) : OfHandler call
  | delete (data : DeleteData) (auth : Option String) {v : Returned}
      {call : Call V}
      (h : deleteItemFromBasket (some data) auth = .returned v call) :
      OfHandler call

theorem Call.OfHandler.copies {s₀ : Store V} {k : Call V} (h : k.OfHandler) :
    k.Copies s₀ := by
  cases h with
  | add data auth h =>
      simp only [addItemInBasket] at h
      split at h
      · next category item hcategory hitem =>
          cases h
          -- `doc()` only takes strings
          have hstr : ∀ {v : Js.Value} {id : String}, docPath v = some id →
              docPath (.str v.toStr) = some id := by
            intro v id hv
            cases v with
            | str s => exact hv
            | _ => cases hv
          change refOf _ _ = _
          rw [refOf, hstr hcategory, hstr hitem]
          rfl
      · cases h
  | delete data auth h =>
      obtain ⟨req, rfl⟩ := deleteItemFromBasket_starts h
      trivial

section Steps

variable {s₀ s s' : Store V} {k k' : Call V} {uid l : String} {n : V}

/-- The catalogue is that of `s₀`, and the lines of the user are copies. -/
structure Store.CopiesOf (s₀ : Store V) (uid : String) (s : Store V) :
    Prop where
  catalog : s.catalog = s₀.catalog
  lines : ∀ l d, s.line uid l = some d → s₀.Copied d

theorem Store.catalog_updateItem {ref : ItemRef}
    (h : s.updateItem ref n = some s') : s'.catalog = s.catalog := by
  funext r
  rw [catalog, updateItem_items h, catalog]
  split
  · next hr =>
      rw [hr, Option.map_map]
      rfl
  · rfl

theorem Store.CopiesOf.updateItem {ref : ItemRef} (hs : s₀.CopiesOf uid s)
    (h : s.updateItem ref n = some s') : s₀.CopiesOf uid s' := by
  refine ⟨(Store.catalog_updateItem h).trans hs.catalog, fun l d hd => ?_⟩
  rw [Store.updateItem_line h] at hd
  exact hs.lines l d hd

theorem Store.CopiesOf.setLine {u l : String} {d : LineDoc V}
    (hs : s₀.CopiesOf uid s) (hd : u = uid → s₀.Copied d) :
    s₀.CopiesOf uid (s.setLine u l d) := by
  refine ⟨hs.catalog, fun l' d' hd' => ?_⟩
  rcases Store.line_of_setLine hd' with ⟨hu, -, rfl⟩ | hd'
  · exact hd hu.symm
  · exact hs.lines l' d' hd'

theorem Store.CopiesOf.deleteLine (hs : s₀.CopiesOf uid s) (u l : String) :
    s₀.CopiesOf uid (s.deleteLine u l) :=
  ⟨hs.catalog, fun l' d' hd' => hs.lines l' d' (Store.line_of_deleteLine hd')⟩

theorem Store.CopiesOf.updateLine {u l : String} (hs : s₀.CopiesOf uid s)
    (h : s.updateLine u l n = some s') : s₀.CopiesOf uid s' := by
  obtain ⟨d, hd, rfl⟩ := Store.updateLine_eq_some.mp h
  refine hs.setLine ?_
  rintro rfl
  exact hs.lines l d hd

theorem Call.Copies.settle {req : AddReq V} {u : String}
    {pending : List (String × V)} {err : Option JsError} :
    Call.Copies s₀ (.add (AddCall.settle req u pending err)) :=
  AddCall.settle_ind (fun c => Call.Copies s₀ (.add c)) trivial
    (fun _ => trivial) trivial

theorem Call.Copies.fails (ha : Call.Fails s k k') : k'.Copies s₀ := by
  cases ha with
  | add ha =>
      cases ha with
      | getItem | updateStock | queryBasket | setLine => trivial
      | updateLine req u pending err i hget => exact .settle
  | delete ha => cases ha <;> trivial

variable [Count V]

theorem Call.Copies.acts (hs : s₀.CopiesOf uid s) (hk : k.Copies s₀)
    (ha : Call.Acts s k s' k') : s₀.CopiesOf uid s' ∧ k'.Copies s₀ := by
  cases ha with
  | add ha =>
      cases ha with
      | getItem req =>
          refine ⟨hs, ?_⟩
          cases hi : s.items req.ref with
          | none => trivial
          | some item =>
              rw [AddCall.onItem]
              split
              · refine ⟨hk, ?_⟩
                rw [← hs.catalog, Store.catalog, hi, Option.map_some]
              · trivial
      | updateStock req item n hu =>
          refine ⟨hs.updateItem hu, ?_⟩
          rw [AddCall.onStockUpdated]
          split
          · trivial
          · split
            · trivial
            · exact hk
      | queryBasket req item u name =>
          refine ⟨hs, ?_⟩
          obtain ⟨hleads, hcopied⟩ := hk
          cases s.linesNamed u name with
          | nil =>
              rw [AddCall.onBasket]
              split
              · exact ⟨req.ref, hleads, hcopied⟩
              · trivial
          | cons e rest => trivial
      | setLine req u d autoId hfresh => exact ⟨hs.setLine fun _ => hk, trivial⟩
      | updateLine req u pending err i hget hu =>
          exact ⟨hs.updateLine hu, .settle⟩
  | delete ha =>
      cases ha with
      | getLine req =>
          refine ⟨hs, ?_⟩
          cases s.line req.uid req.itemID <;> trivial
      | deleteLine req n =>
          refine ⟨hs.deleteLine _ _, ?_⟩
          rw [DeleteCall.onDeleted]
          split <;> trivial
      | getItem req n ref =>
          refine ⟨hs, ?_⟩
          cases s.items ref <;> trivial
      | updateStock req n ref m hu => exact ⟨hs.updateItem hu, trivial⟩

theorem Call.Copies.answered (hs : s₀.CopiesOf uid s) (hk : k.Copies s₀)
    (h : Call.Answered s k s' k') : s₀.CopiesOf uid s' ∧ k'.Copies s₀ :=
  h.ind ⟨hs, hk⟩ (fun _ _ ha => hk.acts hs ha) fun _ hf => ⟨hs, .fails hf⟩

end Steps

/-- Any calls, interleaved in any order and answered either way, make copies
of the catalogue of a basket that was empty. -/
theorem Store.copiesOf_of_run [Count V] {ι : Type} [DecidableEq ι]
    {s₀ : Store V} {uid : String} (h₀ : ∀ l, s₀.line uid l = none)
    {calls : ι → Call V} (hcalls : ∀ i, (calls i).OfHandler)
    {c : Config ι (Store V) (Call V)}
    (hrun : Run (fun _ => Call.Answered) ⟨s₀, calls⟩ c) :
    s₀.CopiesOf uid c.shared := by
  have hboth : s₀.CopiesOf uid c.shared ∧
      ∀ i, (c.locals i).Copies s₀ := by
    refine hrun.separate (L := fun _ k => k.Copies s₀)
      (fun i s k s' k' hs hk h => hk.answered hs h)
      ⟨⟨rfl, fun l d hd => ?_⟩, fun i => (hcalls i).copies⟩
    rw [h₀ l] at hd
    cases hd
  exact hboth.1

end PhoRent
