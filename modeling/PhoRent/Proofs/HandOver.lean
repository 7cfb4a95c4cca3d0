import PhoRent.App.NetworkService
import PhoRent.Functions.Play
import PhoRent.Proofs.Positions

/-!
# Handing a line over

A line leaves the basket with the units it was seen to hold: the function
reads the line, deletes it and returns the units it has read, and the client
orders the units of its last snapshot and deletes the lines. An add in between
makes the line grow, and what it adds goes missing. If no add writes the line
between the removal's look at it and its deletion, all units are handed over.
-/

namespace PhoRent

open Interleave NetworkService

/-- The removal of a line: by a call of the function, or by an order the
client places on a snapshot of the basket. -/
inductive Removal
  | call (c : DeleteCall ℤ)
  | waiting
  | placing (order : Order) (pending : List PutWrite)

def Removal.start (ref : ItemRef) (uid lineID : String) : Bool → Removal
  | true => .call (.getLine (.of ref uid lineID))
  | false => .waiting

inductive Removal.Acts (uid : String) (s : Store ℤ) :
    Removal → Store ℤ → Removal → Prop
  | call {c c' : DeleteCall ℤ} {s' : Store ℤ}
      (h : DeleteCall.Acts s c s' c') : Removal.Acts uid s (.call c) s' (.call c')
  | snapshot (order : Order) (h : order.items = getOrder s uid) :
      Removal.Acts uid s .waiting s (.placing order (putOrder (some uid) order))
  | write {order : Order} {pending pending' : List PutWrite} {s' : Store ℤ}
      (h : PutOrderActs uid s pending s' pending') :
      Removal.Acts uid s (.placing order pending) s' (.placing order pending')

def Removal.seen (lineID : String) : Removal → Bool
  | .call (.deleteLine _ _) => true
  | .placing _ pending => decide (.delete lineID ∈ pending)
  | _ => false

/-- The store, with notes on the removal: whether it has seen the line and not
deleted it yet, what the line held when it was deleted, and the item's stock
when the removal has read a stock document and when it has written one. -/
structure Watched where
  store : Store ℤ
  seen : Bool
  deleted : Option ℤ
  read : Option ℤ
  wrote : Option ℤ

def Watched.start (s : Store ℤ) : Watched := ⟨s, false, none, none, none⟩

def lostLine (uid lineID : String) (s s' : Store ℤ) : Option ℤ :=
  match s.line uid lineID, s'.line uid lineID with
  | some d, none => some d.count
  | _, _ => none

def Removal.reads (ref : ItemRef) (s : Store ℤ) : Removal → Option ℤ
  | .call (.getItem _ _ _) => some (s.stock ref)
  | _ => none

def Removal.writes (ref : ItemRef) (s' : Store ℤ) : Removal → Option ℤ
  | .call (.updateStock _ _ _ _) => some (s'.stock ref)
  | _ => none

@[simps]
def Watched.note (ref : ItemRef) (uid lineID : String) (w : Watched)
    (r : Removal) (s' : Store ℤ) (r' : Removal) : Watched :=
  ⟨s', r'.seen lineID, w.deleted.or (lostLine uid lineID w.store s'),
    (r.reads ref w.store).or w.read, (r.writes ref s').or w.wrote⟩

inductive Proc
  | add (c : AddCall ℤ)
  | remove (r : Removal)

/-- An action of a process. An operation of an add may also fail, as the
update of a line does that has been deleted. -/
inductive Proc.Acts (ref : ItemRef) (uid lineID : String) (w : Watched) :
    Proc → Watched → Proc → Prop
  | add {c c' : AddCall ℤ} {s' : Store ℤ}
      (h : AddCall.Acts w.store c s' c') :
      Proc.Acts ref uid lineID w (.add c) { w with store := s' } (.add c')
  | addFails {c c' : AddCall ℤ} (h : AddCall.Fails w.store c c') :
      Proc.Acts ref uid lineID w (.add c) w (.add c')
  | remove {r r' : Removal} {s' : Store ℤ}
      (h : Removal.Acts uid w.store r s' r') :
      Proc.Acts ref uid lineID w (.remove r) (w.note ref uid lineID r s' r')
        (.remove r')

def Proc.Writes (uid lineID : String) : Proc → Prop
  | .add (.updateLines _ u pending _) => u = uid ∧ lineID ∈ pending.map Prod.fst
  | _ => False

/-- An action that does not write the line while the removal has seen it. -/
def CalmStep (ref : ItemRef) (uid lineID : String) (w : Watched) (k : Proc)
    (w' : Watched) (k' : Proc) : Prop :=
  Proc.Acts ref uid lineID w k w' k' ∧ (w.seen = true → ¬ k.Writes uid lineID)

/-- All units the line held when it was deleted are handed over: the call does
not fail, and has raised the item's stock, as it has read it, by them, or this
order's document has them. -/
def HandedOver (ref : ItemRef) (uid : String) (w : Watched) : Proc → Prop
  | .remove (.call (.done _ _)) => ∃ n k, w.read = some n ∧
      w.wrote = some (n + k) ∧ w.deleted = some k
  | .remove (.call (.failed _ _)) => False
  | .remove (.placing order []) => ∃ orderID,
      w.store.orders.get (userKey uid orderID) = some (.ofOrder order) ∧
        w.deleted = some ((OrderDoc.ofOrder order).units ref)
  | _ => True

section Invariant

variable {ref : ItemRef} {uid lineID name : String} {n : ℤ} {w w' : Watched}
  {s s' : Store ℤ} {c c' : AddCall ℤ} {d : LineDoc ℤ}

/-- The line is there, it records the item under its name, and it is the
user's only such line. -/
def OnlyLine (ref : ItemRef) (uid lineID name : String) (s : Store ℤ)
    (d : LineDoc ℤ) : Prop :=
  s.line uid lineID = some d ∧ d.ref = ref ∧ d.name = some name ∧
    ∀ l d', s.line uid l = some d' → d'.ref = ref → l = lineID

def Watching (ref : ItemRef) (uid lineID name : String) (w : Watched) : Prop :=
  w.store.Named ref name ∧
    (w.deleted = none → ∃ d, OnlyLine ref uid lineID name w.store d)

/-- Where an add can stand. It does not create a line while there is one. -/
inductive AdderAt (ref : ItemRef) (uid : String) (n : ℤ) (name : String)
    (deleted : Option ℤ) : AddCall ℤ → Prop
  | getItem : AdderAt ref uid n name deleted (.getItem (.of ref uid n))
  | updateStock {item : ItemDoc ℤ} {m : ℤ} (hname : item.name = some name) :
      AdderAt ref uid n name deleted (.updateStock (.of ref uid n) item m)
  | queryBasket {item : ItemDoc ℤ} (hname : item.name = some name) :
      AdderAt ref uid n name deleted
        (.queryBasket (.of ref uid n) item uid name)
  | setLine {d : LineDoc ℤ} (hgone : deleted ≠ none) :
      AdderAt ref uid n name deleted (.setLine (.of ref uid n) uid d)
  | updateLines {pending : List (String × ℤ)} {err : Option JsError} :
      AdderAt ref uid n name deleted
        (.updateLines (.of ref uid n) uid pending err)
  | done : AdderAt ref uid n name deleted (.done (.of ref uid n))
  | failed {e : JsError} :
      AdderAt ref uid n name deleted (.failed (.of ref uid n) e)

inductive RemoverAt (ref : ItemRef) (uid lineID : String) (w : Watched) :
    Removal → Prop
  | getLine (hdel : w.deleted = none) :
      RemoverAt ref uid lineID w (.call (.getLine (.of ref uid lineID)))
  | deleteLine {k : ℤ} (hdel : w.deleted = none) (hseen : w.seen = true)
      (hk : ∀ d, w.store.line uid lineID = some d → d.count = k) :
      RemoverAt ref uid lineID w (.call (.deleteLine (.of ref uid lineID) k))
  | getItem {k : ℤ} (hdel : w.deleted = some k) :
      RemoverAt ref uid lineID w (.call (.getItem (.of ref uid lineID) k ref))
  | updateStock {n k : ℤ} (hdel : w.deleted = some k)
      (hread : w.read = some n) :
      RemoverAt ref uid lineID w
        (.call (.updateStock (.of ref uid lineID) k ref (n + k)))
  | done {n k : ℤ} (hdel : w.deleted = some k) (hread : w.read = some n)
      (hwrote : w.wrote = some (n + k)) :
      RemoverAt ref uid lineID w (.call (.done (.of ref uid lineID) k))
  | waiting (hdel : w.deleted = none) : RemoverAt ref uid lineID w .waiting
  | ordering {order : Order} {pending : List PutWrite}
      (hdel : w.deleted = none) (hseen : w.seen = true)
      (hmem : .delete lineID ∈ pending) (hnodup : pending.Nodup)
      (hk : ∀ d, w.store.line uid lineID = some d →
        d.count = (OrderDoc.ofOrder order).units ref)
      (hdoc : ∀ data, .addDocument data ∈ pending → data = .ofOrder order)
      (hput : .addDocument (.ofOrder order) ∈ pending ∨ ∃ orderID,
        w.store.orders.get (userKey uid orderID) = some (.ofOrder order)) :
      RemoverAt ref uid lineID w (.placing order pending)
  | ordered {order : Order} {pending : List PutWrite}
      (hdel : w.deleted = some ((OrderDoc.ofOrder order).units ref))
      (hnot : .delete lineID ∉ pending)
      (hdoc : ∀ data, .addDocument data ∈ pending → data = .ofOrder order)
      (hput : .addDocument (.ofOrder order) ∈ pending ∨ ∃ orderID,
        w.store.orders.get (userKey uid orderID) = some (.ofOrder order)) :
      RemoverAt ref uid lineID w (.placing order pending)

/-! ### The adds -/

theorem OnlyLine.congr (h : OnlyLine ref uid lineID name s d)
    (hl : ∀ l, s'.line uid l = s.line uid l) :
    OnlyLine ref uid lineID name s' d := by
  obtain ⟨hd, href, hname, hone⟩ := h
  exact ⟨hl lineID ▸ hd, href, hname, fun l d' hd' => hone l d' (hl l ▸ hd')⟩

theorem OnlyLine.updateLine {l : String} {m : ℤ}
    (h : OnlyLine ref uid lineID name s d)
    (hu : s.updateLine uid l m = some s') :
    ∃ d', OnlyLine ref uid lineID name s' d' := by
  obtain ⟨hd, href, hname, hone⟩ := h
  obtain ⟨d₁, hd₁, rfl⟩ := Store.updateLine_eq_some.mp hu
  have hone' : ∀ l' d', (s.setLine uid l { d₁ with count := m }).line uid l' =
      some d' → d'.ref = ref → l' = lineID := by
    intro l' d' hl' href'
    rcases Store.line_of_setLine hl' with ⟨-, rfl, rfl⟩ | hl'
    · exact hone l' d₁ hd₁ href'
    · exact hone l' d' hl' href'
  by_cases hl : lineID = l
  · subst hl
    obtain rfl : d₁ = d := Option.some.inj (hd₁.symm.trans hd)
    exact ⟨{ d₁ with count := m }, by simp [Store.line_setLine], href, hname,
      hone'⟩
  · exact ⟨d, by simp [Store.line_setLine, hl, hd], href, hname, hone'⟩

theorem OnlyLine.linesNamed_ne_nil (h : OnlyLine ref uid lineID name s d) :
    s.linesNamed uid name ≠ [] := by
  obtain ⟨hd, -, hname, -⟩ := h
  intro hnil
  exact Store.linesNamed_eq_nil.mp hnil lineID d hd hname

/-- What an action of an add keeps, and that it leaves the line alone unless
it writes it. -/
theorem AdderAt.acts (hw : Watching ref uid lineID name w)
    (h : AdderAt ref uid n name w.deleted c)
    (ha : AddCall.Acts w.store c s' c') :
    Watching ref uid lineID name { w with store := s' } ∧
      AdderAt ref uid n name w.deleted c' ∧ s'.orders = w.store.orders ∧
      (¬ (Proc.add c).Writes uid lineID → w.deleted = none →
        s'.line uid lineID = w.store.line uid lineID) := by
  obtain ⟨hnamed, hline⟩ := hw
  cases h with
  | getItem =>
      cases ha
      refine ⟨⟨hnamed, hline⟩, ?_, rfl, fun _ _ => rfl⟩
      obtain ⟨item, hi, hname⟩ := hnamed
      rw [AddReq.of_ref, hi, AddCall.onItem_of]
      split
      · exact .updateStock hname
      · exact .failed
  | updateStock hname =>
      cases ha with
      | updateStock _ _ _ hu =>
          refine ⟨⟨hnamed.updateItem hu, fun hdel => ?_⟩, ?_,
            Store.updateItem_orders hu,
            fun _ _ => Store.updateItem_line hu uid lineID⟩
          · obtain ⟨d, hd⟩ := hline hdel
            exact ⟨d, hd.congr (Store.updateItem_line hu uid)⟩
          · rw [AddCall.onStockUpdated_of hname]
            exact .queryBasket hname
  | queryBasket hname =>
      cases ha
      refine ⟨⟨hnamed, hline⟩, ?_, rfl, fun _ _ => rfl⟩
      cases hq : w.store.linesNamed uid name with
      | nil =>
          refine .setLine fun hdel => ?_
          obtain ⟨d, hd⟩ := hline hdel
          exact hd.linesNamed_ne_nil hq
      | cons e rest => exact .updateLines
  | setLine hgone =>
      cases ha
      exact ⟨⟨hnamed, fun hdel => absurd hdel hgone⟩, .done, rfl,
        fun _ hdel => absurd hdel hgone⟩
  | @updateLines pending err =>
      cases ha with
      | @updateLine _ _ _ _ k l m _ hk hu =>
          obtain ⟨d₁, hd₁, hs'⟩ := Store.updateLine_eq_some.mp hu
          refine ⟨⟨?_, fun hdel => ?_⟩, ?_, ?_, fun hnot hdel => ?_⟩
          · obtain ⟨item, hi, hname⟩ := hnamed
            exact ⟨item, by rw [Store.updateLine_items hu]; exact hi, hname⟩
          · obtain ⟨d, hd⟩ := hline hdel
            exact hd.updateLine hu
          · exact AddCall.settle_ind _ .done (fun _ => .failed) .updateLines
          · rw [hs']; rfl
          · have hne : ¬ (uid = uid ∧ lineID = l) := by
              intro hex
              obtain ⟨-, rfl⟩ := hex
              exact hnot ⟨rfl, List.mem_map.mpr
                ⟨_, List.mem_of_getElem? hk, rfl⟩⟩
            rw [hs', Store.line_setLine, if_neg hne]
  | done => cases ha
  | failed => cases ha

theorem AdderAt.fails {del : Option ℤ} (h : AdderAt ref uid n name del c)
    (ha : AddCall.Fails s c c') : AdderAt ref uid n name del c' := by
  cases h with
  | getItem | updateStock | queryBasket | setLine => cases ha; exact .failed
  | updateLines =>
      cases ha
      exact AddCall.settle_ind _ .done (fun _ => .failed) .updateLines
  | done => cases ha
  | failed => cases ha

theorem AdderAt.mono {del del' : Option ℤ} (h : AdderAt ref uid n name del c)
    (hdel : del ≠ none → del' ≠ none) : AdderAt ref uid n name del' c := by
  cases h with
  | getItem => exact .getItem
  | updateStock hname => exact .updateStock hname
  | queryBasket hname => exact .queryBasket hname
  | setLine hgone => exact .setLine (hdel hgone)
  | updateLines => exact .updateLines
  | done => exact .done
  | failed => exact .failed

/-! ### The removal -/

theorem lostLine_of_eq
    (h : s'.line uid lineID = s.line uid lineID) :
    lostLine uid lineID s s' = none := by
  rw [lostLine, h]
  cases s.line uid lineID <;> rfl

theorem lostLine_deleteLine (h : s.line uid lineID = some d) :
    lostLine uid lineID s (s.deleteLine uid lineID) = some d.count := by
  rw [lostLine, h, Store.line_deleteLine, if_pos ⟨rfl, rfl⟩]

theorem OnlyLine.units_order (h : OnlyLine ref uid lineID name s d)
    {order : Order} (ho : order.items = getOrder s uid) :
    (OrderDoc.ofOrder order).units ref = d.count := by
  obtain ⟨hd, href, -, hone⟩ := h
  rw [units_ofOrder (by rw [ho]), Store.held_eq_single hd]
  · simp [Store.linesOf, href]
  · intro u l d' hd' hp
    simp only [Store.linesOf, Bool.and_eq_true, decide_eq_true_eq] at hp
    obtain ⟨rfl, href'⟩ := hp
    exact ⟨rfl, hone l d' hd' href'⟩

theorem OnlyLine.apply {x : PutWrite} {orderID : String}
    (hx : x ≠ .delete lineID) (h : OnlyLine ref uid lineID name s d) :
    OnlyLine ref uid lineID name (x.apply uid orderID s) d := by
  obtain ⟨hd, href, hname, hone⟩ := h
  refine ⟨?_, href, hname, fun l d' hl => hone l d' ?_⟩
  · rw [PutWrite.line_apply, if_neg hx]
    exact hd
  · rw [PutWrite.line_apply] at hl
    split at hl
    · cases hl
    · exact hl

theorem Watching.keep (hw : Watching ref uid lineID name w)
    (hnamed : s'.Named ref name)
    (hl : ∀ l, s'.line uid l = w.store.line uid l) (r r' : Removal) :
    (w.note ref uid lineID r s' r').deleted = w.deleted ∧
      Watching ref uid lineID name (w.note ref uid lineID r s' r') := by
  have hdel : (w.note ref uid lineID r s' r').deleted = w.deleted := by
    rw [Watched.note_deleted, lostLine_of_eq (hl lineID), Option.or_none]
  refine ⟨hdel, hnamed, fun h => ?_⟩
  obtain ⟨d, hd⟩ := hw.2 (hdel ▸ h)
  exact ⟨d, hd.congr hl⟩

theorem Watching.lose (hw : Watching ref uid lineID name w)
    (hdel : w.deleted = none) (r r' : Removal) :
    ∃ d, w.store.line uid lineID = some d ∧
      (w.note ref uid lineID r (w.store.deleteLine uid lineID) r').deleted =
        some d.count ∧
      Watching ref uid lineID name
        (w.note ref uid lineID r (w.store.deleteLine uid lineID) r') := by
  obtain ⟨d, hd⟩ := hw.2 hdel
  have hdel' : (w.note ref uid lineID r (w.store.deleteLine uid lineID)
      r').deleted = some d.count := by
    rw [Watched.note_deleted, hdel, Option.none_or, lostLine_deleteLine hd.1]
  exact ⟨d, hd.1, hdel', hw.1, fun h => by rw [hdel'] at h; cases h⟩

theorem RemoverAt.call_acts {c c' : DeleteCall ℤ}
    (hw : Watching ref uid lineID name w)
    (h : RemoverAt ref uid lineID w (.call c))
    (ha : DeleteCall.Acts w.store c s' c') :
    Watching ref uid lineID name (w.note ref uid lineID (.call c) s' (.call c')) ∧
      RemoverAt ref uid lineID (w.note ref uid lineID (.call c) s' (.call c'))
        (.call c') := by
  cases h with
  | getLine hdel =>
      cases ha
      obtain ⟨hdel', hw'⟩ := hw.keep hw.1 (fun _ => rfl)
        (.call (.getLine (.of ref uid lineID)))
        (.call (DeleteCall.onLine (.of ref uid lineID)
          (w.store.line uid lineID)))
      obtain ⟨d, hd⟩ := hw.2 hdel
      refine ⟨hw', ?_⟩
      simp only [DeleteReq.of, hd.1, DeleteCall.onLine] at hdel' ⊢
      refine .deleteLine (hdel'.trans hdel) rfl fun d' hd' => ?_
      rw [Option.some.inj (hd'.symm.trans hd.1)]
  | @deleteLine k hdel hseen hk =>
      cases ha
      rw [DeleteReq.onDeleted_of]
      obtain ⟨d, hd, hdel', hw'⟩ := hw.lose hdel
        (.call (.deleteLine (.of ref uid lineID) k))
        (.call (.getItem (.of ref uid lineID) k ref))
      exact ⟨hw', .getItem (by rw [← hk d hd]; exact hdel')⟩
  | @getItem k hdel =>
      cases ha
      obtain ⟨item, hi, -⟩ := hw.1
      rw [hi]
      obtain ⟨hdel', hw'⟩ := hw.keep hw.1 (fun _ => rfl)
        (.call (.getItem (.of ref uid lineID) k ref))
        (.call (.updateStock (.of ref uid lineID) k ref (item.count + k)))
      refine ⟨hw', .updateStock (hdel'.trans hdel) ?_⟩
      rw [Watched.note_read, Removal.reads, Store.stock_of_items hi]
      rfl
  | @updateStock n k hdel hread =>
      cases ha with
      | updateStock _ _ _ _ hu =>
          obtain ⟨hdel', hw'⟩ := hw.keep (hw.1.updateItem hu)
            (Store.updateItem_line hu uid)
            (.call (.updateStock (.of ref uid lineID) k ref (n + k)))
            (.call (.done (.of ref uid lineID) k))
          refine ⟨hw', .done (hdel'.trans hdel) hread ?_⟩
          rw [Watched.note_wrote, Removal.writes, Store.stock_updateItem hu,
            if_pos rfl]
          rfl
  | done => cases ha

theorem RemoverAt.snapshot {order : Order}
    (hw : Watching ref uid lineID name w) (hdel : w.deleted = none)
    (ho : order.items = getOrder w.store uid) :
    RemoverAt ref uid lineID
      (w.note ref uid lineID .waiting w.store
        (.placing order (putOrder (some uid) order)))
      (.placing order (putOrder (some uid) order)) := by
  obtain ⟨d, hd⟩ := hw.2 hdel
  have hdel' := (hw.keep hw.1 (fun _ => rfl) .waiting
    (.placing order (putOrder (some uid) order))).1
  have hids : (order.items.map BasketItem.itemID).Nodup :=
    ho ▸ getOrder_nodup w.store uid
  have hmem : .delete lineID ∈ putOrder (some uid) order := by
    refine List.mem_cons_of_mem _ (List.mem_map.mpr ⟨d.decode lineID, ?_, rfl⟩)
    rw [ho]
    exact mem_getOrder.mpr ⟨lineID, d, hd.1, rfl⟩
  have hnodup : (putOrder (some uid) order).Nodup := by
    refine List.nodup_cons.mpr ⟨by simp, ?_⟩
    have hmap : order.items.map (fun item => PutWrite.delete item.itemID) =
        (order.items.map BasketItem.itemID).map .delete := by
      rw [List.map_map]; rfl
    rw [hmap]
    exact hids.map fun _ _ h => PutWrite.delete.inj h
  refine .ordering (hdel'.trans hdel) (decide_eq_true hmem) hmem hnodup ?_ ?_
    (Or.inl (by simp [putOrder]))
  · intro d' hd'
    rw [hd.units_order ho, Option.some.inj (hd'.symm.trans hd.1)]
  · intro data hdata
    simpa [putOrder] using hdata

/-- The order document is still to be written, or it has been, after a write
as before. -/
theorem putOrder_doc {order : Order} {pending : List PutWrite} {x : PutWrite}
    (orderID : String)
    (hdoc : ∀ data, .addDocument data ∈ pending → data = .ofOrder order)
    (hx : x ∈ pending)
    (hput : .addDocument (.ofOrder order) ∈ pending ∨ ∃ orderID,
      s.orders.get (userKey uid orderID) = some (.ofOrder order)) :
    .addDocument (.ofOrder order) ∈ pending.erase x ∨ ∃ orderID',
      (x.apply uid orderID s).orders.get (userKey uid orderID') =
        some (.ofOrder order) := by
  cases x with
  | addDocument data =>
      obtain rfl := hdoc data hx
      exact Or.inr ⟨orderID, Keyed.Coll.get_put_self ..⟩
  | delete l =>
      refine hput.imp (fun h => ?_) id
      exact (List.mem_erase_of_ne (by simp)).mpr h

theorem RemoverAt.write_acts {order : Order} {pending pending' : List PutWrite}
    (hw : Watching ref uid lineID name w)
    (h : RemoverAt ref uid lineID w (.placing order pending))
    (ha : PutOrderActs uid w.store pending s' pending') :
    Watching ref uid lineID name
        (w.note ref uid lineID (.placing order pending) s'
          (.placing order pending')) ∧
      RemoverAt ref uid lineID
        (w.note ref uid lineID (.placing order pending) s'
          (.placing order pending')) (.placing order pending') := by
  cases ha with
  | apply x orderID hx hfresh =>
  have hdoc' : ∀ {data : OrderDoc}, .addDocument data ∈ pending.erase x →
      .addDocument data ∈ pending := fun hm => List.mem_of_mem_erase hm
  have hnamed : (x.apply uid orderID w.store).Named ref name := by
    obtain ⟨item, hi, hname⟩ := hw.1
    exact ⟨item, by rw [PutWrite.items_apply]; exact hi, hname⟩
  cases h with
  | ordering hdel hseen hmem hnodup hk hdoc hput =>
      have hput' := putOrder_doc orderID hdoc hx hput
      by_cases hxl : x = .delete lineID
      · subst hxl
        obtain ⟨d, hd, hdel', hw'⟩ := hw.lose hdel (.placing order pending)
          (.placing order (pending.erase (.delete lineID)))
        exact ⟨hw', .ordered (by rw [← hk d hd]; exact hdel')
          hnodup.not_mem_erase (fun data hm => hdoc data (hdoc' hm)) hput'⟩
      · have hmem' : .delete lineID ∈ pending.erase x :=
          (List.mem_erase_of_ne (Ne.symm hxl)).mpr hmem
        have hline : (x.apply uid orderID w.store).line uid lineID =
            w.store.line uid lineID := by
          rw [PutWrite.line_apply, if_neg hxl]
        have hdel' : (w.note ref uid lineID (.placing order pending)
            (x.apply uid orderID w.store)
            (.placing order (pending.erase x))).deleted = w.deleted := by
          rw [Watched.note_deleted, lostLine_of_eq hline, Option.or_none]
        refine ⟨⟨hnamed, fun h => ?_⟩, .ordering (hdel'.trans hdel)
          (decide_eq_true hmem') hmem' (hnodup.erase x)
          (fun d hd => hk d (hline ▸ hd))
          (fun data hm => hdoc data (hdoc' hm)) hput'⟩
        obtain ⟨d, hd⟩ := hw.2 (hdel' ▸ h)
        exact ⟨d, hd.apply hxl⟩
  | ordered hdel hnot hdoc hput =>
      have hput' := putOrder_doc orderID hdoc hx hput
      have hdel' : (w.note ref uid lineID (.placing order pending)
          (x.apply uid orderID w.store)
          (.placing order (pending.erase x))).deleted =
            some ((OrderDoc.ofOrder order).units ref) := by
        rw [Watched.note_deleted, hdel, Option.some_or]
      refine ⟨⟨hnamed, fun h => ?_⟩, .ordered hdel'
        (fun hm => hnot (List.mem_of_mem_erase hm))
        (fun data hm => hdoc data (hdoc' hm)) hput'⟩
      rw [hdel'] at h
      cases h

theorem RemoverAt.acts {r r' : Removal}
    (hw : Watching ref uid lineID name w) (h : RemoverAt ref uid lineID w r)
    (ha : Removal.Acts uid w.store r s' r') :
    Watching ref uid lineID name (w.note ref uid lineID r s' r') ∧
      RemoverAt ref uid lineID (w.note ref uid lineID r s' r') r' := by
  cases ha with
  | call ha => exact h.call_acts hw ha
  | snapshot order ho =>
      cases h with
      | waiting hdel =>
          exact ⟨(hw.keep hw.1 (fun _ => rfl) _ _).2, .snapshot hw hdel ho⟩
  | write ha => exact h.write_acts hw ha

theorem RemoverAt.mono {r : Removal} (h : RemoverAt ref uid lineID w r)
    (horders : s'.orders = w.store.orders)
    (hl : w.deleted = none → w.seen = true →
      s'.line uid lineID = w.store.line uid lineID) :
    RemoverAt ref uid lineID { w with store := s' } r := by
  cases h with
  | getLine hdel => exact .getLine hdel
  | deleteLine hdel hseen hk =>
      exact .deleteLine hdel hseen fun d hd => hk d (hl hdel hseen ▸ hd)
  | getItem hdel => exact .getItem hdel
  | updateStock hdel hread => exact .updateStock hdel hread
  | done hdel hread hwrote => exact .done hdel hread hwrote
  | waiting hdel => exact .waiting hdel
  | ordering hdel hseen hmem hnodup hk hdoc hput =>
      refine .ordering hdel hseen hmem hnodup
        (fun d hd => hk d (hl hdel hseen ▸ hd)) hdoc ?_
      rw [horders]
      exact hput
  | ordered hdel hnot hdoc hput =>
      refine .ordered hdel hnot hdoc ?_
      rw [horders]
      exact hput

/-- Once the removal is through, everything has been handed over. -/
theorem RemoverAt.handedOver {r : Removal}
    (h : RemoverAt ref uid lineID w r) : HandedOver ref uid w (.remove r) := by
  cases h with
  | done hdel hread hwrote => exact ⟨_, _, hread, hwrote, hdel⟩
  | getLine | deleteLine | getItem | updateStock | waiting => trivial
  | @ordering order pending hdel hseen hmem =>
      cases pending with
      | nil => cases hmem
      | cons => trivial
  | @ordered order pending hdel hnot hdoc hput =>
      cases pending with
      | nil =>
          rcases hput with h | ⟨orderID, hget⟩
          · cases h
          · exact ⟨orderID, hget, hdel⟩
      | cons => trivial

def ProcAt {ι : Type} (ref : ItemRef) (uid lineID name : String) (n : ι → ℤ) :
    Option ι → Watched → Proc → Prop
  | some i, w, .add c => AdderAt ref uid (n i) name w.deleted c
  | none, w, .remove r => RemoverAt ref uid lineID w r
  | _, _, _ => False

variable {ι : Type} {n : ι → ℤ} {i j : Option ι} {k k' : Proc}

theorem ProcAt.own (hw : Watching ref uid lineID name w)
    (h : ProcAt ref uid lineID name n i w k)
    (ha : CalmStep ref uid lineID w k w' k') :
    Watching ref uid lineID name w' ∧
      ProcAt ref uid lineID name n i w' k' := by
  obtain ⟨ha, -⟩ := ha
  cases i with
  | some i =>
      cases ha with
      | add ha =>
          obtain ⟨hw', hat, -⟩ := AdderAt.acts hw h ha
          exact ⟨hw', hat⟩
      | addFails ha => exact ⟨hw, AdderAt.fails h ha⟩
      | remove => exact h.elim
  | none =>
      cases ha with
      | add | addFails => exact h.elim
      | remove ha => exact RemoverAt.acts hw h ha

theorem ProcAt.other {kj : Proc} (hij : j ≠ i)
    (hw : Watching ref uid lineID name w)
    (h : ProcAt ref uid lineID name n i w k)
    (hj : ProcAt ref uid lineID name n j w kj)
    (ha : CalmStep ref uid lineID w k w' k') :
    ProcAt ref uid lineID name n j w' kj := by
  obtain ⟨ha, hcalm⟩ := ha
  cases ha with
  | addFails => exact hj
  | add ha =>
      cases i with
      | none => exact h.elim
      | some i =>
          obtain ⟨-, -, horders, hl⟩ := AdderAt.acts hw h ha
          cases j with
          | some j =>
              cases kj with
              | add => exact hj
              | remove => exact hj.elim
          | none =>
              cases kj with
              | add => exact hj.elim
              | remove r =>
                  exact RemoverAt.mono hj horders
                    fun hdel hseen => hl (hcalm hseen) hdel
  | remove ha =>
      cases i with
      | some i => exact h.elim
      | none =>
          cases j with
          | none => exact absurd rfl hij
          | some j =>
              cases kj with
              | remove => exact hj.elim
              | add c =>
                  refine AdderAt.mono hj fun hne => ?_
                  obtain ⟨m, hm⟩ := Option.ne_none_iff_exists'.mp hne
                  rw [Watched.note_deleted, hm, Option.some_or]
                  simp

end Invariant

/-- If no add writes the line between the removal's look at it and its
deletion, then what is handed over is what the line held when it was
deleted. -/
theorem handed_over {ι : Type} [DecidableEq ι] {s₀ : Store ℤ} {ref : ItemRef}
    {uid lineID name : String} {n : ι → ℤ} {d : LineDoc ℤ}
    (hname : s₀.Named ref name) (hline : s₀.line uid lineID = some d)
    (href : d.ref = ref) (hdname : d.name = some name)
    (hone : ∀ l d', s₀.line uid l = some d' → d'.ref = ref → l = lineID)
    (byCall : Bool) {c : Config (Option ι) Watched Proc}
    (hrun : Run (fun _ => CalmStep ref uid lineID)
      ⟨.start s₀, fun p => p.elim
        (.remove (.start ref uid lineID byCall))
        fun i => .add (.getItem (.of ref uid (n i)))⟩ c) :
    HandedOver ref uid c.shared (c.locals none) := by
  have hend : Watching ref uid lineID name c.shared ∧ ∀ p,
      ProcAt ref uid lineID name n p c.shared (c.locals p) := by
    refine Run.pointwise
      (fun _ _ _ _ _ hw h ha => ProcAt.own hw h ha)
      (fun _ _ _ _ _ _ _ hij hw h hj ha => ProcAt.other hij hw h hj ha)
      hrun ⟨⟨hname, fun _ => ?_⟩, fun p => ?_⟩
    · exact ⟨d, hline, href, hdname, hone⟩
    · cases p with
      | some i => exact .getItem
      | none =>
          cases byCall with
          | true => exact .getLine rfl
          | false => exact .waiting rfl
  have hat := hend.2 none
  generalize c.locals none = k at hat
  cases k with
  | add => exact hat.elim
  | remove r => exact RemoverAt.handedOver hat

/-! ## Playing it through -/

instance (uid lineID : String) : DecidablePred (Proc.Writes uid lineID)
  | .add (.updateLines _ u pending _) =>
      inferInstanceAs (Decidable (u = uid ∧ lineID ∈ pending.map Prod.fst))
  | .add (.getItem _) | .add (.updateStock _ _ _)
  | .add (.queryBasket _ _ _ _) | .add (.setLine _ _ _) | .add (.done _)
  | .add (.failed _ _) | .remove _ => .isFalse id

def Proc.act? (ref : ItemRef) (uid lineID : String) (e : String × ℕ)
    (w : Watched) : Proc → Option (Watched × Proc)
  | .add c =>
      (AddCall.act? (fun _ _ => True) e w.store c).map fun x =>
        ({ w with store := x.1 }, .add x.2)
  | .remove (.call c) =>
      (DeleteCall.act? (fun _ _ => True) e w.store c).map fun x =>
        (w.note ref uid lineID (.call c) x.1 (.call x.2), .remove (.call x.2))
  | .remove _ => none

theorem Proc.acts_of_act? {ref : ItemRef} {uid lineID : String} {e : String × ℕ}
    {w w' : Watched} {k k' : Proc}
    (h : Proc.act? ref uid lineID e w k = some (w', k')) :
    Proc.Acts ref uid lineID w k w' k' := by
  cases k with
  | add c =>
      obtain ⟨⟨s', c'⟩, hx, he⟩ := Option.map_eq_some_iff.mp h
      obtain ⟨rfl, rfl⟩ := Prod.mk.inj he
      exact .add (AddCall.acts_of_act? hx).1
  | remove r =>
      cases r with
      | call c =>
          obtain ⟨⟨s', c'⟩, hx, he⟩ := Option.map_eq_some_iff.mp h
          obtain ⟨rfl, rfl⟩ := Prod.mk.inj he
          exact .remove (.call (DeleteCall.acts_of_act? hx).1)
      | waiting | placing => cases h

def Proc.calm? (ref : ItemRef) (uid lineID : String) (e : String × ℕ)
    (w : Watched) (k : Proc) : Option (Watched × Proc) :=
  if w.seen = true → ¬ k.Writes uid lineID then k.act? ref uid lineID e w
  else none

theorem Proc.calm_of_calm? {ref : ItemRef} {uid lineID : String} {e : String × ℕ}
    {w w' : Watched} {k k' : Proc}
    (h : Proc.calm? ref uid lineID e w k = some (w', k')) :
    CalmStep ref uid lineID w k w' k' := by
  rw [Proc.calm?] at h
  split at h
  · next hcalm => exact ⟨Proc.acts_of_act? h, hcalm⟩
  · cases h

def Proc.CallDone : Proc → Prop
  | .remove (.call (.done _ _)) => True
  | _ => False

instance : DecidablePred Proc.CallDone
  | .remove (.call (.done _ _)) => .isTrue trivial
  | .add _ | .remove .waiting | .remove (.placing _ _)
  | .remove (.call (.getLine _)) | .remove (.call (.deleteLine _ _))
  | .remove (.call (.getItem _ _ _)) | .remove (.call (.updateStock _ _ _ _))
  | .remove (.call (.failed _ _)) => .isFalse id

/-- Five cameras in the basket; one is added, and then the line is removed by
a call. -/
theorem handed_over_cameras :
    ∃ c, Run (fun _ => CalmStep camera "ann" "l")
        ⟨.start ((cameras 2).setLine "ann" "l" (cameraLine 5)),
          fun p : Option Unit => p.elim
            (.remove (.start camera "ann" "l" true))
            fun _ => .add (.getItem (.of camera "ann" 1))⟩ c ∧
      c.shared.deleted = some 6 ∧ (c.locals none).CallDone ∧
      HandedOver camera "ann" c.shared (c.locals none) := by
  obtain ⟨c, hrun, hdel, hdone⟩ : ∃ c, Run (fun _ => CalmStep camera "ann" "l")
      ⟨.start ((cameras 2).setLine "ann" "l" (cameraLine 5)),
        fun p : Option Unit => p.elim
          (.remove (.start camera "ann" "l" true))
          fun _ => .add (.getItem (.of camera "ann" 1))⟩ c ∧
      c.shared.deleted = some 6 ∧ (c.locals none).CallDone :=
    exists_run_of_play (fun _ => Proc.calm? camera "ann" "l")
      (fun _ _ _ _ _ _ => Proc.calm_of_calm?)
      [(some (), "", 0), (some (), "", 0), (some (), "", 0),
        (some (), "", 0), (none, "", 0), (none, "", 0), (none, "", 0),
        (none, "", 0)]
      (by decide +kernel)
  have hnamed : Store.Named
      ((cameras (2 : ℤ)).setLine "ann" "l" (cameraLine 5)) camera "Camera" :=
    ⟨_, rfl, rfl⟩
  have hline : ((cameras (2 : ℤ)).setLine "ann" "l" (cameraLine 5)).line
      "ann" "l" = some (cameraLine 5) := by simp [Store.line_setLine]
  refine ⟨c, hrun, hdel, hdone,
    handed_over hnamed hline rfl rfl ?_ true hrun⟩
  intro l d' hd' _
  rcases Store.line_of_setLine hd' with ⟨-, hl, -⟩ | hd'
  · exact hl
  · cases hd'

/-- The add's update falls between the removal's look at the line and its
deletion: the line held six cameras when it was deleted, and the stock of one
the removal has read becomes six. -/
theorem camera_left_behind :
    ∃ c, Run (fun _ => Proc.Acts camera "ann" "l")
        ⟨.start ((cameras 2).setLine "ann" "l" (cameraLine 5)),
          fun p : Option Unit => p.elim
            (.remove (.start camera "ann" "l" true))
            fun _ => .add (.getItem (.of camera "ann" 1))⟩ c ∧
      c.shared.deleted = some 6 ∧ c.shared.read = some 1 ∧
      c.shared.wrote = some 6 ∧
      ¬ HandedOver camera "ann" c.shared (c.locals none) := by
  obtain ⟨c, hrun, hdel, hread, hwrote, hdone⟩ :
      ∃ c, Run (fun _ => Proc.Acts camera "ann" "l")
        ⟨.start ((cameras 2).setLine "ann" "l" (cameraLine 5)),
          fun p : Option Unit => p.elim
            (.remove (.start camera "ann" "l" true))
            fun _ => .add (.getItem (.of camera "ann" 1))⟩ c ∧
      c.shared.deleted = some 6 ∧ c.shared.read = some 1 ∧
      c.shared.wrote = some 6 ∧ (c.locals none).CallDone :=
    exists_run_of_play (fun _ => Proc.act? camera "ann" "l")
      (fun _ _ _ _ _ _ => Proc.acts_of_act?)
      [(some (), "", 0), (some (), "", 0), (some (), "", 0),
        (none, "", 0), (some (), "", 0), (none, "", 0), (none, "", 0),
        (none, "", 0)]
      (by decide +kernel)
  refine ⟨c, hrun, hdel, hread, hwrote, fun h => ?_⟩
  generalize c.locals none = k at hdone h
  cases k with
  | add => exact hdone.elim
  | remove r =>
      cases r with
      | waiting | placing => exact hdone.elim
      | call x =>
          cases x with
          | done req k =>
              obtain ⟨n, k, hn, hw, hk⟩ := h
              rw [hdel, Option.some.injEq] at hk
              rw [hread, Option.some.injEq] at hn
              rw [hwrote, Option.some.injEq] at hw
              omega
          | getLine | deleteLine | getItem | updateStock | failed =>
              exact hdone.elim

end PhoRent
