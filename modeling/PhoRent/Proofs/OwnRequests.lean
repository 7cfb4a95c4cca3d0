import PhoRent.Proofs.Positions
import PhoRent.Proofs.World

/-!
# Requests of the app's own

The functions take whatever they are sent, and a callback may throw after an
earlier one has written: a stock document that does not exist, a path that is
none, a caller that is not signed in, an item without a name. Then units are
gone.

The screens of the app send nothing of this kind. A page has only items whose
document has a name, a removal has the ids of a line that was copied of the
catalogue, and what they refer to stays. So no handler throws. What is left are
a stock that will not serve the count and a line that is gone, which are found
out by the first read, and a line that goes while it is being updated.
-/

namespace PhoRent

open Machine NetworkService

open BasketScreen (plainDates)

/-- If the event is a user's, somebody is signed in. -/
def WorldEvent.signedIn {Date : Type} : WorldEvent Date → Bool
  | .basket _ _ currentUser | .page _ _ currentUser => currentUser.isSome
  | _ => true

/-- An id drawn for a new document is a document id. -/
def WorldEvent.DrawsDocID {Date : Type} : WorldEvent Date → Prop
  | .answered _ t => DocID t.autoId
  | _ => True

instance {Date : Type} : (e : WorldEvent Date) → Decidable e.DrawsDocID
  | .answered _ t => inferInstanceAs (Decidable (DocID t.autoId))
  | .basketOpened | .pageOpened _ | .basketRead _ | .itemsRead _ _
  | .basket _ _ _ | .page _ _ _ | .written _ _ _ => .isTrue trivial

/-- The stock is as a database can have it: ids are without slashes, and a
document has one field `name` at most. -/
structure Store.Regular (s : Store ℤ) : Prop where
  ids : ∀ ref, (s.items ref).isSome → DocID ref.categoryID ∧ DocID ref.itemID
  fields : ∀ ref item, s.items ref = some item →
    item.fields.lookup "name" = none

def Call.AtStart : Call ℤ → Prop
  | .add (.getItem _) | .delete (.getLine _) => True
  | _ => False

/-- The error the call has failed with, or will fail with once the last update
of a line is answered. -/
def Call.trouble? : Call ℤ → Option JsError
  | .add (.updateLines _ _ _ err) => err
  | k => k.error?

/-- The answer is to the update of a line that is not there any more. -/
def Call.LostLine (s : Store ℤ) (t : Turn) : Call ℤ → Prop
  | .add (.updateLines _ uid pending _) =>
      ∃ e, pending[t.pick]? = some e ∧ s.line uid e.1 = none
  | _ => False

/-- What the callbacks to come will need is there: the stock document, and for
an add a caller and a name. -/
def Call.Sure (s₀ : Store ℤ) : Call ℤ → Prop
  | .add (.getItem req) =>
      req.uid ≠ none ∧ ∀ item, s₀.items req.ref = some item → item.name ≠ none
  | .add (.updateStock req item _) =>
      req.uid ≠ none ∧ item.name ≠ none ∧ (s₀.items req.ref).isSome
  | .delete (.getLine req) | .delete (.deleteLine req _) =>
      ∃ ref, req.ref? = some ref ∧ (s₀.items ref).isSome
  | .delete (.getItem _ _ ref) | .delete (.updateStock _ _ ref _) =>
      (s₀.items ref).isSome
  | _ => True

section Calls

variable {s₀ s s' : Store ℤ} {k k' : Call ℤ}

theorem Call.Sure.settle {req : AddReq ℤ} {uid : String}
    {pending : List (String × ℤ)} {err : Option JsError} :
    Call.Sure s₀ (.add (AddCall.settle req uid pending err)) :=
  AddCall.settle_ind (fun c => Call.Sure s₀ (.add c)) trivial
    (fun _ => trivial) trivial

theorem Call.Sure.acts (hs : s.catalog = s₀.catalog) (hk : k.Sure s₀)
    (ha : Call.Acts s k s' k') : k'.Sure s₀ := by
  cases ha with
  | add ha =>
      cases ha with
      | getItem req =>
          cases hi : s.items req.ref with
          | none => trivial
          | some item =>
              rw [AddCall.onItem]
              split
              · refine ⟨hk.1, ?_, by rw [← Store.isSome_congr hs, hi]; rfl⟩
                have href := congrFun hs req.ref
                rw [Store.catalog, hi, Store.catalog, Option.map_some, eq_comm,
                  Option.map_eq_some_iff] at href
                obtain ⟨item', hi', hcopied⟩ := href
                rw [← (Prod.mk.inj hcopied).1]
                exact hk.2 item' hi'
              · trivial
      | updateStock req item n hu =>
          rw [AddCall.onStockUpdated]
          split
          · trivial
          · split <;> trivial
      | queryBasket req item u name =>
          cases s.linesNamed u name with
          | nil =>
              rw [AddCall.onBasket]
              split <;> trivial
          | cons e rest => trivial
      | setLine => trivial
      | updateLine => exact .settle
  | delete ha =>
      cases ha with
      | getLine req =>
          cases s.line req.uid req.itemID with
          | none => trivial
          | some d => exact hk
      | deleteLine req n =>
          obtain ⟨ref, href, hsome⟩ := hk
          rw [DeleteCall.onDeleted, href]
          exact hsome
      | getItem req n ref =>
          cases s.items ref with
          | none => trivial
          | some item => exact hk
      | updateStock => trivial

theorem Call.Sure.fails (ha : Call.Fails s k k') : k'.Sure s₀ := by
  cases ha with
  | add ha =>
      cases ha with
      | updateLine => exact .settle
      | _ => trivial
  | delete ha => cases ha <;> trivial

theorem Call.Sure.answered (hs : s.catalog = s₀.catalog) (hk : k.Sure s₀)
    (h : Call.Answered s k s' k') : k'.Sure s₀ :=
  h.ind (P := fun _ k => k.Sure s₀) hk (fun _ _ ha => hk.acts hs ha)
    fun _ hf => .fails hf

theorem Store.isSome_updateItem {ref : ItemRef} (h : (s.items ref).isSome)
    (n : ℤ) : (s.updateItem ref n).isSome := by
  rw [updateItem, Option.isSome_map]
  exact h

/-- As long as the line is there its update does not fail. -/
theorem Call.lostLine_of_trouble {req : AddReq ℤ} {uid : String}
    {pending : List (String × ℤ)} {t : Turn} (ht : t.ok = true)
    (htrouble : (step t s (.add (.updateLines req uid pending
      none))).2.trouble? ≠ none) :
    LostLine s t (.add (.updateLines req uid pending none)) := by
  by_contra hlost
  refine htrouble ?_
  simp only [step, AddCall.step]
  cases hget : pending[t.pick]? with
  | none => rfl
  | some e =>
      obtain ⟨docID, n⟩ := e
      have hline : (s.updateLine uid docID n).isSome := by
        rw [Store.updateLine, Option.isSome_map, Option.isSome_iff_ne_none]
        exact fun hnone => hlost ⟨_, hget, hnone⟩
      obtain ⟨s₁, hs₁⟩ := Option.isSome_iff_exists.mp hline
      simp only [if_pos ht, hs₁, AddCall.settle]
      split <;> rfl

/-- With all it needs a call only gets into trouble before it has written
anything, or for a line that is gone, as long as the backend carries its
operations out. -/
theorem Call.Sure.fails_early (hs : s.catalog = s₀.catalog) (hk : k.Sure s₀)
    (hrunning : k.trouble? = none) {t : Turn} (ht : t.ok = true)
    (hstep : k.step t s = (s', k')) (hfailed : k'.trouble? ≠ none) :
    (k.AtStart ∧ s' = s) ∨ k.LostLine s t := by
  have hitems : ∀ {ref}, (s₀.items ref).isSome → (s.items ref).isSome := by
    intro ref h
    rwa [Store.isSome_congr hs]
  cases k with
  | add c =>
      obtain ⟨rfl, rfl⟩ := Prod.mk.inj hstep
      cases c with
      | getItem req =>
          refine Or.inl ⟨trivial, ?_⟩
          simp only [if_pos ht]
          rfl
      | updateStock req item n =>
          obtain ⟨huid, hname, hsome⟩ := hk
          obtain ⟨s₁, hs₁⟩ := Option.isSome_iff_exists.mp
            (Store.isSome_updateItem (hitems hsome) n)
          obtain ⟨uid, huid⟩ := Option.ne_none_iff_exists'.mp huid
          obtain ⟨name, hname⟩ := Option.ne_none_iff_exists'.mp hname
          refine absurd ?_ hfailed
          simp only [if_pos ht, hs₁, AddCall.onStockUpdated, huid, hname]
          rfl
      | queryBasket req item uid name =>
          refine absurd ?_ hfailed
          simp only [if_pos ht]
          cases s.linesNamed uid name <;> rfl
      | setLine req uid d =>
          refine absurd ?_ hfailed
          simp only [if_pos ht]
          rfl
      | updateLines req uid pending err =>
          obtain rfl : err = none := hrunning
          exact Or.inr (lostLine_of_trouble ht hfailed)
      | done req => exact absurd rfl hfailed
      | failed req e => cases hrunning
  | delete c =>
      obtain ⟨rfl, rfl⟩ := Prod.mk.inj hstep
      cases c with
      | getLine req =>
          refine Or.inl ⟨trivial, ?_⟩
          simp only [if_pos ht]
          rfl
      | deleteLine req n =>
          obtain ⟨ref, href, -⟩ := hk
          refine absurd ?_ hfailed
          simp only [if_pos ht, DeleteCall.onDeleted, href]
          rfl
      | getItem req n ref =>
          obtain ⟨item, hi⟩ := Option.isSome_iff_exists.mp (hitems hk)
          refine absurd ?_ hfailed
          simp only [if_pos ht, hi]
          rfl
      | updateStock req n ref m =>
          obtain ⟨s₁, hs₁⟩ := Option.isSome_iff_exists.mp
            (Store.isSome_updateItem (hitems hk) m)
          refine absurd ?_ hfailed
          simp only [if_pos ht, hs₁]
          rfl
      | done req n => exact absurd rfl hfailed
      | failed req e => cases hrunning

/-- A line there is after an answer has been there before, or has the id the
answer has drawn. -/
theorem Call.line_of_step {t : Turn} {u l : String} {d' : LineDoc ℤ}
    (h : (k.step t s).1.line u l = some d') :
    l = t.autoId ∨ ∃ d, s.line u l = some d := by
  cases k with
  | add c =>
      simp only [step, Prod.map_fst, id] at h
      cases c with
      | getItem | queryBasket =>
          simp only [AddCall.step] at h
          split at h <;> exact Or.inr ⟨d', h⟩
      | updateStock req item n =>
          simp only [AddCall.step] at h
          split at h
          · next s₁ hs₁ =>
              split at hs₁
              · exact Or.inr ⟨d', Store.updateItem_line hs₁ u l ▸ h⟩
              · cases hs₁
          · exact Or.inr ⟨d', h⟩
      | setLine req uid d =>
          simp only [AddCall.step] at h
          split at h
          · rcases Store.line_of_setLine h with ⟨-, hl, -⟩ | h
            · exact Or.inl hl
            · exact Or.inr ⟨d', h⟩
          · exact Or.inr ⟨d', h⟩
      | updateLines req uid pending err =>
          simp only [AddCall.step] at h
          split at h
          · exact Or.inr ⟨d', h⟩
          · next docID n hget =>
              split at h
              · next s₁ hs₁ =>
                  split at hs₁
                  · obtain ⟨d, hd, rfl⟩ := Store.updateLine_eq_some.mp hs₁
                    rcases Store.line_of_setLine h with ⟨rfl, rfl, -⟩ | h
                    · exact Or.inr ⟨d, hd⟩
                    · exact Or.inr ⟨d', h⟩
                  · cases hs₁
              · exact Or.inr ⟨d', h⟩
      | done | failed => exact Or.inr ⟨d', h⟩
  | delete c =>
      simp only [step, Prod.map_fst, id] at h
      cases c with
      | getLine | getItem =>
          simp only [DeleteCall.step] at h
          split at h <;> exact Or.inr ⟨d', h⟩
      | deleteLine req n =>
          simp only [DeleteCall.step] at h
          split at h
          · exact Or.inr ⟨d', Store.line_of_deleteLine h⟩
          · exact Or.inr ⟨d', h⟩
      | updateStock req n ref m =>
          simp only [DeleteCall.step] at h
          split at h
          · next s₁ hs₁ =>
              split at hs₁
              · exact Or.inr ⟨d', Store.updateItem_line hs₁ u l ▸ h⟩
              · cases hs₁
          · exact Or.inr ⟨d', h⟩
      | done | failed => exact Or.inr ⟨d', h⟩

theorem Store.LineIDs.step {t : Turn} (h : s.LineIDs) (hid : DocID t.autoId)
    (k : Call ℤ) : (k.step t s).1.LineIDs := by
  intro u l d' hd'
  rcases Call.line_of_step hd' with rfl | ⟨d, hd⟩
  · exact hid
  · exact h u l d hd

end Calls

/-! ## The handlers -/

section Handlers

variable {s₀ : Store ℤ} {currentUser : Option String} {v : Returned}
  {call : Call ℤ}

theorem Store.Offers.returned {categoryID : String} {item : Item}
    (hregular : s₀.Regular) (hitem : s₀.Offers categoryID item) (count : ℤ)
    (currentUser : Option String) :
    ∃ v call, addItemInBasket (some ⟨.str item.ID, .str categoryID, count⟩)
      currentUser = .returned v call := by
  obtain ⟨doc, hdoc, -⟩ := hitem
  obtain ⟨hcategory, hid⟩ :=
    hregular.ids ⟨categoryID, item.ID⟩ (by rw [hdoc]; rfl)
  rw [addItemInBasket, docPath_str hcategory, docPath_str hid]
  exact ⟨_, _, rfl⟩

/-- The handler takes the id of a line; the others it does not look at. -/
theorem deleteItemFromBasket_returned {itemID : String} (h : DocID itemID)
    (dbItemID categoryID uid : String) :
    ∃ v call, deleteItemFromBasket (V := ℤ)
      (some ⟨.str itemID, .str categoryID, .str dbItemID⟩) (some uid) =
        .returned v call := by
  simp only [deleteItemFromBasket, docPath_str h]
  exact ⟨_, _, rfl⟩

theorem Store.Offers.sure {categoryID : String} {item : Item} {count : ℤ}
    (hregular : s₀.Regular) (hitem : s₀.Offers categoryID item)
    (huser : currentUser ≠ none)
    (h : addItemInBasket (some ⟨.str item.ID, .str categoryID, count⟩)
      currentUser = .returned v call) : call.Sure s₀ := by
  obtain ⟨doc, hdoc, hname, -⟩ := hitem
  obtain ⟨hcategory, hid⟩ :=
    hregular.ids ⟨categoryID, item.ID⟩ (by rw [hdoc]; rfl)
  rw [addItemInBasket, docPath_str hcategory, docPath_str hid] at h
  cases h
  refine ⟨huser, fun doc' hdoc' => ?_⟩
  obtain rfl : doc = doc' := Option.some.inj (hdoc.symm.trans hdoc')
  intro hnone
  have hlookup : doc.data.lookup "name" = none := by
    rw [ItemDoc.data, hnone]
    exact hregular.fields _ doc hdoc
  rw [QueryDocumentSnapshot.get, field, Option.bind_some, hlookup] at hname
  cases hname

theorem Store.Describes.sure {item : BasketItem} (hitem : s₀.Describes item)
    (h : deleteItemFromBasket (V := ℤ)
      (some ⟨.str item.itemID, .str item.categoryID, .str item.dbItemID⟩)
      currentUser = .returned v call) : call.Sure s₀ := by
  obtain ⟨ref, href, hsome⟩ := hitem.found
  obtain ⟨category, hcategory, href⟩ := Option.bind_eq_some_iff.mp href
  obtain ⟨dbItem, hdbItem, href⟩ := Option.bind_eq_some_iff.mp href
  obtain rfl := Option.some.inj href
  unfold deleteItemFromBasket at h
  simp only at h
  split at h
  · cases h
  · split at h
    · cases h
    · cases h
      refine ⟨_, ?_, hsome⟩
      rw [DeleteReq.ref?, hcategory, hdbItem]

end Handlers

/-! ## The world -/

namespace World

variable {Date : Type} {formatter : DateFormatter Date} {s₀ : Store ℤ}
  {w w' : World} {call : Call ℤ} {currentUser : Option String}

theorem call_of_handled {r : Handled ℤ} (h : call ∈ (w.handled r).calls) :
    call ∈ w.calls ∨ ∃ v, r = .returned v call := by
  cases r with
  | threw e => exact Or.inl h
  | returned v call' =>
      refine (List.mem_append.mp h).imp_right fun hmem => ?_
      rw [List.mem_singleton.mp hmem]
      exact ⟨v, rfl⟩

theorem call_of_foldl_perform {requests : List BasketEffect}
    (h : call ∈ (requests.foldl (World.perform currentUser) w).calls) :
    call ∈ w.calls ∨ ∃ itemID dbItemID categoryID v,
      .removeFromBasket itemID dbItemID categoryID ∈ requests ∧
        deleteItemFromBasket
          (some ⟨.str itemID, .str categoryID, .str dbItemID⟩) currentUser =
            .returned v call := by
  induction requests generalizing w with
  | nil => exact Or.inl h
  | cons request rest ih =>
      rcases ih h with h | ⟨itemID, dbItemID, categoryID, v, hmem, hstarts⟩
      · cases request with
        | removeFromBasket itemID dbItemID categoryID =>
            refine (call_of_handled h).imp_right fun ⟨v, hv⟩ => ?_
            exact ⟨itemID, dbItemID, categoryID, v, List.mem_cons_self, hv⟩
        | _ => exact Or.inl h
      · exact Or.inr ⟨itemID, dbItemID, categoryID, v,
          List.mem_cons_of_mem _ hmem, hstarts⟩

theorem call_of_addItemInBasket {page : CategoryPage} {e : CategoryEvent}
    (h : call ∈ (w.addItemInBasket page currentUser e).calls) :
    call ∈ w.calls ∨ ∃ row count item v, page.screen.row row = some item ∧
      PhoRent.addItemInBasket
        (some ⟨.str item.ID, .str page.category, count⟩) currentUser =
          .returned v call := by
  unfold World.addItemInBasket at h
  split at h
  · next row count =>
      split at h
      · next item hitem =>
          refine (call_of_handled h).imp_right fun ⟨v, hv⟩ => ?_
          exact ⟨row, count, item, v, hitem, hv⟩
      · exact Or.inl h
  · exact Or.inl h

theorem sure_handle (hregular : s₀.Regular) (hw : w.Kept formatter s₀)
    (hsure : ∀ call ∈ w.calls, call.Sure s₀) {e : WorldEvent Date}
    (hok : w.Possible e) (hsigned : e.signedIn = true)
    (hs : w.handle formatter e = some w') :
    ∀ call ∈ w'.calls, call.Sure s₀ := by
  intro call hcall
  cases e with
  | basketOpened | pageOpened | basketRead | itemsRead =>
      obtain rfl := Option.some.inj hs
      exact hsure call hcall
  | basket k e currentUser =>
      obtain ⟨screen, hscreen, hs⟩ := Option.bind_eq_some_iff.mp hs
      obtain ⟨screen', -, rfl⟩ := Option.map_eq_some_iff.mp hs
      rcases call_of_foldl_perform hcall with
        hcall | ⟨itemID, dbItemID, categoryID, v, hrequest, hstarts⟩
      · exact hsure call hcall
      · obtain ⟨item, hitem, rfl, rfl, rfl⟩ :=
          BasketScreen.item_of_requests hrequest
        have hholds := hw.baskets screen (List.mem_of_getElem? hscreen)
        exact (hholds.presenter.items item hitem).sure hstarts
  | page k e currentUser =>
      obtain ⟨page, hpage, hs⟩ := Option.bind_eq_some_iff.mp hs
      obtain ⟨screen', -, rfl⟩ := Option.map_eq_some_iff.mp hs
      rcases call_of_addItemInBasket hcall with
        hcall | ⟨row, count, item, v, hrow, hstarts⟩
      · exact hsure call hcall
      · have hholds := hw.pages page (List.mem_of_getElem? hpage)
        refine (hholds.row hrow).sure hregular ?_ hstarts
        exact Option.isSome_iff_ne_none.mp hsigned
  | answered i t =>
      obtain ⟨old, hold, rfl⟩ := Option.map_eq_some_iff.mp hs
      rcases List.mem_or_eq_of_mem_set hcall with hcall | rfl
      · exact hsure call hcall
      · exact (hsure old (List.mem_of_getElem? hold)).answered
          (hw.copies "").catalog ⟨t, hok, rfl⟩
  | written j ok orderID =>
      obtain ⟨x, -, rfl⟩ := Option.map_eq_some_iff.mp hs
      exact hsure call hcall

/-- No line on a screen or on its way to one has an id that is none. -/
structure LineIDs (formatter : DateFormatter Date) (w : World) : Prop where
  store : w.store.LineIDs
  baskets : ∀ screen ∈ w.baskets,
    screen.Holds formatter fun item => DocID item.itemID
  snapshots : ∀ items ∈ w.basketSnapshots, ∀ item ∈ items, DocID item.itemID

theorem LineIDs.handled (h : w.LineIDs formatter) (r : Handled ℤ) :
    (w.handled r).LineIDs formatter := by
  cases r with
  | threw e => exact h
  | returned v call => exact ⟨h.store, h.baskets, h.snapshots⟩

theorem LineIDs.foldl_perform {requests : List BasketEffect}
    (h : w.LineIDs formatter) :
    (requests.foldl (World.perform currentUser) w).LineIDs formatter := by
  induction requests generalizing w with
  | nil => exact h
  | cons request rest ih =>
      refine ih ?_
      cases request with
      | removeFromBasket itemID dbItemID categoryID => exact h.handled _
      | _ => exact ⟨h.store, h.baskets, h.snapshots⟩

theorem LineIDs.addItemInBasket {page : CategoryPage} {e : CategoryEvent}
    (h : w.LineIDs formatter) :
    (w.addItemInBasket page currentUser e).LineIDs formatter := by
  unfold World.addItemInBasket
  split
  · split
    · exact h.handled _
    · exact h
  · exact h

theorem LineIDs.handle {e : WorldEvent Date} (h : w.LineIDs formatter)
    (hok : w.Possible e) (hid : e.DrawsDocID)
    (hs : w.handle formatter e = some w') : w'.LineIDs formatter := by
  cases e with
  | basketOpened =>
      obtain rfl := Option.some.inj hs
      refine ⟨h.store, fun screen hscreen => ?_, h.snapshots⟩
      rcases List.mem_append.mp hscreen with hscreen | hscreen
      · exact h.baskets screen hscreen
      · rw [List.mem_singleton.mp hscreen]
        exact BasketScreen.holds_start
  | pageOpened | itemsRead =>
      obtain rfl := Option.some.inj hs
      exact ⟨h.store, h.baskets, h.snapshots⟩
  | basketRead uid =>
      obtain rfl := Option.some.inj hs
      refine ⟨h.store, h.baskets, fun items hitems item hitem => ?_⟩
      rcases List.mem_append.mp hitems with hitems | hitems
      · exact h.snapshots items hitems item hitem
      · rw [List.mem_singleton.mp hitems, mem_getOrder] at hitem
        obtain ⟨l, d, hd, rfl⟩ := hitem
        exact h.store uid l d hd
  | basket k e currentUser =>
      obtain ⟨screen, hscreen, hs⟩ := Option.bind_eq_some_iff.mp hs
      obtain ⟨screen', hscreen', rfl⟩ := Option.map_eq_some_iff.mp hs
      have hholds := h.baskets screen (List.mem_of_getElem? hscreen)
      have hbrings : e.Brings fun item => DocID item.itemID := by
        cases e with
        | snapshot items now => exact h.snapshots items hok
        | _ => trivial
      refine LineIDs.foldl_perform ⟨h.store, fun s hs => ?_, h.snapshots⟩
      rcases List.mem_or_eq_of_mem_set hs with hs | rfl
      · exact h.baskets s hs
      · exact hholds.handle hbrings hscreen'
  | page k e currentUser =>
      obtain ⟨page, -, hs⟩ := Option.bind_eq_some_iff.mp hs
      obtain ⟨screen', -, rfl⟩ := Option.map_eq_some_iff.mp hs
      exact LineIDs.addItemInBasket ⟨h.store, h.baskets, h.snapshots⟩
  | answered i t =>
      obtain ⟨call, -, rfl⟩ := Option.map_eq_some_iff.mp hs
      exact ⟨h.store.step hid call, h.baskets, h.snapshots⟩
  | written j ok orderID =>
      obtain ⟨x, -, rfl⟩ := Option.map_eq_some_iff.mp hs
      refine ⟨fun u l d hd => ?_, h.baskets, h.snapshots⟩
      cases ok with
      | false => exact h.store u l d hd
      | true =>
          obtain ⟨userID, write⟩ := x
          cases write with
          | addDocument data => exact h.store u l d hd
          | delete itemID =>
              exact h.store u l d (Store.line_of_deleteLine hd)

/-- Whatever the screens send next for somebody who is signed in, the handler
does not throw: neither for a removal nor for an add from a row. -/
structure Accepted (Date : Type) (w : World) : Prop where
  removal : ∀ screen ∈ w.baskets, ∀ (e : BasketScreenEvent Date) itemID
    dbItemID categoryID,
    .removeFromBasket itemID dbItemID categoryID ∈ screen.requests e →
    ∀ uid, ∃ v call, deleteItemFromBasket (V := ℤ)
      (some ⟨.str itemID, .str categoryID, .str dbItemID⟩) (some uid) =
        .returned v call
  add : ∀ page ∈ w.pages, ∀ row item, page.screen.row row = some item →
    ∀ count uid, ∃ v call, PhoRent.addItemInBasket (V := ℤ)
      (some ⟨.str item.ID, .str page.category, count⟩) (some uid) =
        .returned v call

/-- What the screens send for users who are signed in never makes a handler
throw, and no call gets into trouble once it has written, unless the backend
refuses an operation or a line it has found is taken away: the answer that does
it is that of the call's first read, and the store is as it was, or that of the
update of the line. -/
theorem fails_early_of_run (hregular : s₀.Regular) (hids : s₀.LineIDs)
    (hlines : ∀ uid l d, s₀.line uid l = some d → s₀.Copied d)
    (hcounts : s₀.Counts (0 ≤ ·) (1 ≤ ·))
    (h : Run (World.handle formatter)
      (fun w e => Possible w e ∧ e.signedIn = true ∧ e.DrawsDocID)
      (start s₀) w) :
    w.Accepted Date ∧ ∀ call ∈ w.calls, call.trouble? = none →
      ∀ (t : Turn) s' call', t.ok = true →
        call.step t w.store = (s', call') → call'.trouble? ≠ none →
          (call.AtStart ∧ s' = w.store) ∨ call.LostLine w.store t := by
  have hinv : w.Kept formatter s₀ ∧ (∀ call ∈ w.calls, call.Sure s₀) ∧
      w.LineIDs formatter := by
    refine h.invariant
      (I := fun w => w.Kept formatter s₀ ∧ (∀ call ∈ w.calls, call.Sure s₀) ∧
        w.LineIDs formatter)
      (fun w e w' hw hok hs => ⟨hw.1.handle hok.1 hs,
        sure_handle hregular hw.1 hw.2.1 hok.1 hok.2.1 hs,
        hw.2.2.handle hok.1 hok.2.2 hs⟩)
      ⟨kept_start hlines hcounts, List.forall_mem_nil _,
        hids, List.forall_mem_nil _, List.forall_mem_nil _⟩
  obtain ⟨hkept, hsure, hline⟩ := hinv
  refine ⟨⟨fun screen hscreen e itemID dbItemID categoryID hrequest uid => ?_,
    fun page hpage row item hrow count uid => ?_⟩,
    fun call hcall hrunning t s' call' ht hstep hfailed =>
      (hsure call hcall).fails_early (hkept.copies "").catalog hrunning ht
        hstep hfailed⟩
  · obtain ⟨item, hitem, rfl, rfl, rfl⟩ :=
      BasketScreen.item_of_requests hrequest
    have hid := (hline.baskets screen hscreen).presenter.items item hitem
    exact deleteItemFromBasket_returned hid _ _ uid
  · exact ((hkept.pages page hpage).row hrow).returned hregular count _

theorem pricedCamera_regular : pricedCamera.Regular := by
  constructor
  · intro ref h
    by_cases href : ref = camera
    · subst href
      decide
    · simp only [pricedCamera, if_neg href] at h
      cases h
  · intro ref item h
    simp only [pricedCamera] at h
    split at h
    · rw [← Option.some.inj h]
      decide
    · cases h

/-- Ann wants five of three cameras. -/
theorem fails_early_of_run_camera :
    ∃ w, Run (World.handle plainDates)
        (fun w e => Possible w e ∧ e.signedIn = true ∧ e.DrawsDocID)
        (start pricedCamera) w ∧ w.Accepted String ∧
      ∃ call ∈ w.calls, (call.step ⟨true, "", 0⟩ w.store).2.error? ≠ none ∧
        ((call.AtStart ∧ (call.step ⟨true, "", 0⟩ w.store).1 = w.store) ∨
          call.LostLine w.store ⟨true, "", 0⟩) := by
  obtain ⟨w, hrun, call, hcall, hrunning, hfailed, htrouble⟩ :
      ∃ w, Run (World.handle plainDates)
          (fun w e => (w.possible? e && e.signedIn) = true ∧ e.DrawsDocID)
          (start pricedCamera) w ∧
        ∃ call ∈ w.calls, call.trouble? = none ∧
          (call.step ⟨true, "", 0⟩ w.store).2.error? ≠ none ∧
          (call.step ⟨true, "", 0⟩ w.store).2.trouble? ≠ none :=
    exists_run_of_play
      (cameraOrdered.take 3 ++ [.page 0 (.addTapped 0 5 true) (some "ann")])
      (by decide +kernel)
  have hsigned : Run (World.handle plainDates)
      (fun w e => Possible w e ∧ e.signedIn = true ∧ e.DrawsDocID)
      (start pricedCamera) w :=
    hrun.mono fun w e he =>
      have h := Bool.and_eq_true_iff.mp he.1
      ⟨possible_of_possible? h.1, h.2, he.2⟩
  obtain ⟨haccepted, hearly⟩ := fails_early_of_run pricedCamera_regular
    (fun _ _ _ hd => by cases hd) pricedCamera_lines pricedCamera_counts
    hsigned
  exact ⟨w, hsigned, haccepted, call, hcall, hfailed,
    hearly call hcall hrunning _ _ _ rfl rfl htrouble⟩

end World

end PhoRent
