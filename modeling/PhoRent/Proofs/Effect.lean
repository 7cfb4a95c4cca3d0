import PhoRent.Functions.Alone
import PhoRent.Proofs.Positions

/-!
# What a complete call does

The store a call leaves behind when it runs alone and nothing fails, for
every store: names may be shared or missing, a basket may have any number of
lines of a name, and the arguments of a removal may lead anywhere. Each way a
call can end is a constructor, with what it was in the store that made it end
that way.
-/

namespace PhoRent

/-! ## Adds -/

section Add

variable {s : Store ℤ} {ref : ItemRef} {uid : String} {n : ℤ}

/-- How an add of `n` units can end. An accepted one has written the stock,
and then created a line, or updated every line of the item's name. -/
inductive AddOutcome (s : Store ℤ) (ref : ItemRef) (uid : String) (n : ℤ) :
    Store ℤ × Call ℤ → Prop
  | absent (hi : s.items ref = none) {e : JsError} :
      AddOutcome s ref uid n (s, .add (.failed (.of ref uid n) e))
  | refused {item : ItemDoc ℤ} (hi : s.items ref = some item)
      (hlt : item.count < n) {e : JsError} :
      AddOutcome s ref uid n (s, .add (.failed (.of ref uid n) e))
  | nameless {item : ItemDoc ℤ} (hi : s.items ref = some item)
      (hle : n ≤ item.count) (hname : item.name = none) {s₁ : Store ℤ}
      (hu : s.updateItem ref (item.count - n) = some s₁) {e : JsError} :
      AddOutcome s ref uid n (s₁, .add (.failed (.of ref uid n) e))
  | created {item : ItemDoc ℤ} {name : String} (hi : s.items ref = some item)
      (hle : n ≤ item.count) (hname : item.name = some name) {s₁ : Store ℤ}
      (hu : s.updateItem ref (item.count - n) = some s₁)
      (hq : s.linesNamed uid name = []) (id : String)
      (hid : ∀ u, s.line u id = none) :
      AddOutcome s ref uid n
        (s₁.setLine uid id (AddCall.newLine (.of ref uid n) item),
          .add (.done (.of ref uid n)))
  | updated {item : ItemDoc ℤ} {name : String} (hi : s.items ref = some item)
      (hle : n ≤ item.count) (hname : item.name = some name) {s₁ : Store ℤ}
      (hu : s.updateItem ref (item.count - n) = some s₁)
      (hq : s.linesNamed uid name ≠ []) {s' : Store ℤ}
      (hitems : s'.items = s₁.items) (horders : s'.orders = s₁.orders)
      (hlines : LinesUpdated .all uid
        ((s.linesNamed uid name).map fun e => (e.1, e.2.count + n)) s s')
      {k : Call ℤ} (hk : k.error? = none) : AddOutcome s ref uid n (s', k)

theorem Store.exists_updateItem {V : Type} {s : Store V} {ref : ItemRef}
    {item : ItemDoc V} (hi : s.items ref = some item) (v : V) :
    ∃ s₁, s.updateItem ref v = some s₁ := by
  rw [Store.updateItem, hi]
  exact ⟨_, rfl⟩

theorem LinesUpdated.of_line {V : Type} {a : Answers} {uid : String}
    {pending : List (String × V)} {s s₁ s' : Store V}
    (hline : ∀ u l, s₁.line u l = s.line u l)
    (h : LinesUpdated a uid pending s₁ s') : LinesUpdated a uid pending s s' := by
  refine ⟨fun e he hae => ?_, fun u l hl => ?_⟩
  · rw [h.1 e he hae, hline]
  · rw [h.2 u l hl, hline]

theorem LinesUpdated.line_single {V : Type} {uid l : String} {v : V}
    {s s' : Store V} {d : LineDoc V} (h : LinesUpdated .all uid [(l, v)] s s')
    (hl : s.line uid l = some d) (u l' : String) :
    s'.line u l' = (s.setLine uid l { d with count := v }).line u l' := by
  obtain ⟨hdo, hkeep⟩ := h
  rw [Store.line_setLine]
  split
  · next heq =>
      obtain ⟨rfl, rfl⟩ := heq
      rw [hdo _ (List.mem_singleton_self _) rfl, hl]
      rfl
  · next hne =>
      refine hkeep u l' fun hu e he hel => absurd ⟨hu, ?_⟩ hne
      rw [List.mem_singleton] at he
      rw [← hel, he]

theorem add_outcome : Ends .all (s, .add (.getItem (.of ref uid n)))
    (AddOutcome s ref uid n) := by
  rw [ends_add_getItem]
  simp only [Answers.all_getItem, if_true, AddReq.of_ref]
  cases hi : s.items ref with
  | none =>
      rw [AddCall.onItem, ends_add_failed]
      exact .absent hi
  | some item =>
      rw [AddCall.onItem_of]
      by_cases hle : n ≤ item.count
      swap
      · rw [if_neg hle, ends_add_failed]
        exact .refused hi (not_le.mp hle)
      obtain ⟨s₁, hu⟩ := Store.exists_updateItem hi (item.count - n)
      have hline := Store.updateItem_line hu
      rw [if_pos hle, ends_add_updateStock]
      simp only [Answers.all_updateStock, if_true, AddReq.of_ref, hu]
      cases hname : item.name with
      | none =>
          simp only [AddCall.onStockUpdated, AddReq.of, hname]
          rw [ends_add_failed]
          exact .nameless hi hle hname hu
      | some name =>
          rw [AddCall.onStockUpdated_of hname, ends_add_queryBasket]
          simp only [Answers.all_queryBasket, if_true,
            Store.updateItem_linesNamed hu]
          cases hq : s.linesNamed uid name with
          | nil =>
              simp only [AddCall.onBasket, Count.storable_int, if_true,
                ends_add_setLine, Answers.all_setLine]
              intro id hid
              exact .created hi hle hname hu hq id
                fun u => (hline u id).symm.trans (hid u)
          | cons e rest =>
              rw [AddCall.onBasket, ← hq]
              · intro z hr hz
                have hnodup := s.linesNamed_nodup uid name
                have hend := ends_updateLines .all (.of ref uid n) none
                  (by simp [hq]) (by simpa [Function.comp_def] using hnodup)
                  (fun e he => ?_) z hr hz
                · refine .updated hi hle hname hu (by simp [hq]) hend.items
                    hend.orders (hend.lines.of_line hline) ?_
                  have herr := hend.error
                  simpa using herr
                · obtain ⟨e', he', rfl⟩ := List.mem_map.mp he
                  rw [hline, (Store.mem_linesNamed.mp he').1]
                  simp
              · simp

theorem AddOutcome.accepted {z : Store ℤ × Call ℤ}
    (h : AddOutcome s ref uid n z) (hz : z.2.error? = none) :
    ∃ item name s₁, s.items ref = some item ∧ item.name = some name ∧
      s.updateItem ref (item.count - n) = some s₁ ∧
      z.1.items = s₁.items ∧
      ((s.linesNamed uid name = [] ∧ ∃ id, (∀ u, s.line u id = none) ∧
          z.1 = s₁.setLine uid id (AddCall.newLine (.of ref uid n) item)) ∨
        (s.linesNamed uid name ≠ [] ∧ LinesUpdated .all uid
          ((s.linesNamed uid name).map fun e => (e.1, e.2.count + n))
          s z.1)) := by
  cases h with
  | absent | refused | nameless => cases hz
  | created hi hle hname hu hq id hid =>
      exact ⟨_, _, _, hi, hname, hu, rfl, Or.inl ⟨hq, id, hid, rfl⟩⟩
  | updated hi hle hname hu hq hitems horders hlines hk =>
      exact ⟨_, _, _, hi, hname, hu, hitems, Or.inr ⟨hq, hlines⟩⟩

end Add

/-! ## Removals -/

section Delete

variable {V : Type} [Count V] {s : Store V} {req : DeleteReq}

/-- How a removal can end. Once the line is there it is gone, and what then
happens to its units is up to the arguments. -/
inductive DeleteOutcome (s : Store V) (req : DeleteReq) :
    Store V × Call V → Prop
  | absent (hl : s.line req.uid req.itemID = none) {e : JsError} :
      DeleteOutcome s req (s, .delete (.failed req e))
  | nowhere {d : LineDoc V} (hl : s.line req.uid req.itemID = some d)
      (href : req.ref? = none) {e : JsError} :
      DeleteOutcome s req
        (s.deleteLine req.uid req.itemID, .delete (.failed req e))
  | lost {d : LineDoc V} (hl : s.line req.uid req.itemID = some d)
      {ref : ItemRef} (href : req.ref? = some ref) (hi : s.items ref = none)
      {e : JsError} :
      DeleteOutcome s req
        (s.deleteLine req.uid req.itemID, .delete (.failed req e))
  | restocked {d : LineDoc V} (hl : s.line req.uid req.itemID = some d)
      {ref : ItemRef} (href : req.ref? = some ref) {item : ItemDoc V}
      (hi : s.items ref = some item) {s' : Store V}
      (hu : (s.deleteLine req.uid req.itemID).updateItem ref
        (Count.add item.count d.count) = some s') :
      DeleteOutcome s req (s', .delete (.done req d.count))

theorem delete_outcome :
    Ends .all (s, .delete (.getLine req)) (DeleteOutcome s req) := by
  rw [ends_delete_getLine]
  simp only [Answers.all_getLine, if_true]
  cases hl : s.line req.uid req.itemID with
  | none =>
      rw [DeleteCall.onLine, ends_delete_failed]
      exact .absent hl
  | some d =>
      simp only [DeleteCall.onLine, ends_delete_deleteLine,
        Answers.all_deleteLine, if_true]
      cases href : req.ref? with
      | none =>
          simp only [DeleteCall.onDeleted, href, ends_delete_failed]
          exact .nowhere hl href
      | some ref =>
          simp only [DeleteCall.onDeleted, href, ends_delete_getItem,
            Answers.all_getItem, if_true, Store.deleteLine_items]
          cases hi : s.items ref with
          | none =>
              rw [DeleteCall.onItem, ends_delete_failed]
              exact .lost hl href hi
          | some item =>
              obtain ⟨s', hu⟩ := Store.exists_updateItem
                (s := s.deleteLine req.uid req.itemID) hi
                (Count.add item.count d.count)
              simp only [DeleteCall.onItem, ends_delete_updateStock,
                Answers.all_updateStock, if_true, hu, ends_delete_done]
              exact .restocked hl href hi hu

end Delete

end PhoRent
