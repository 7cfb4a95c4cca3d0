import PhoRent.App.BasketPresenter
import PhoRent.Functions.Play
import PhoRent.Lib.Interleave

/-!
# Is a line ordered at most once?

A user is signed in on any number of devices, each with its presenter. An
order is made of the basket the presenter has last been shown, its document
and the deletes of its lines are sent without looking at the basket again, and
nothing keeps the button from sending the same lines twice: the presenter
notes that an order is on its way, but only `setOrder` asks.

What is needed is that every line of an order that is sent is still in the
basket, with no delete of it on the way. Then a line that is in an order,
placed or on its way, is gone or about to go, and no presenter sends it again.
-/

namespace PhoRent

open Interleave BasketPresenter NetworkService

/-! ## The devices of one user -/

/-- A write on its way: who has sent it, and for which order. -/
structure Sent (ι : Type) where
  device : ι
  order : Order
  write : PutWrite

/-- What the devices of a user share: the store, the baskets it has held, the
writes on their way, the completions due, and the orders placed, each with the
id of its document. -/
structure Backend (ι : Type) where
  store : Store ℤ
  past : List (List BasketItem)
  writes : List (Sent ι)
  answers : List (ι × NetResult)
  placed : List (String × Order)

/-- What can happen next, on a device or behind it. Adds by the same user go
on meanwhile, as far as the basket sees them. -/
inductive BasketEvent (Date : Type)
  | snapshot (items : List BasketItem) (now : Date)
  | updateCountOfDay (newCount : ℤ)
  | updateDate (newDate : Date)
  | putOrder (isConnectedToNetwork : Bool)
  -- the `k`-th completion due runs
  | completed (k : ℕ) (now : Date)
  -- the `k`-th write on its way is carried out
  | written (k : ℕ) (orderID : String)
  | lineCreated (lineID : String) (d : LineDoc ℤ)
  | lineUpdated (lineID : String) (n : ℤ)

section Devices

variable {ι Date : Type} (formatter : DateFormatter Date) (userID : String)

def Backend.Seen (s : Backend ι) (l : String) : Prop :=
  ∃ items ∈ s.past, l ∈ items.map BasketItem.itemID

instance (s : Backend ι) (l : String) : Decidable (s.Seen l) :=
  inferInstanceAs (Decidable (∃ items ∈ s.past, _))

/-- A method of the presenter on device `i` has run, and the orders it sends
are on their way. -/
def Backend.send (i : ι) (s : Backend ι)
    (r : BasketPresenter × List BasketEffect) : Backend ι × BasketPresenter :=
  ({ s with
      writes := s.writes ++ (ordersSent r.2).flatMap fun order =>
        (NetworkService.putOrder (some userID) order).map fun w =>
          ⟨i, order, w⟩ },
    r.1)

def Backend.save (s : Backend ι) (store : Store ℤ) : Backend ι :=
  { s with store := store, past := getOrder store userID :: s.past }

def Backend.carryOut (s : Backend ι) (x : Sent ι) (rest : List (Sent ι))
    (orderID : String) : Backend ι :=
  let s := s.save userID (x.write.apply userID orderID s.store)
  { s with
    writes := rest
    answers := s.answers ++
      ((putOrderCompletion true x.write).map fun r => (x.device, r)).toList
    placed := match x.write with
      | .addDocument _ => (orderID, x.order) :: s.placed
      | .delete _ => s.placed }

def BasketEvent.act? [DecidableEq ι] (i : ι) :
    BasketEvent Date → Backend ι → BasketPresenter →
      Option (Backend ι × BasketPresenter)
  | .snapshot items now, s, p =>
      if items ∈ s.past then
        some (s.send userID i (p.setOrder formatter now items))
      else none
  | .updateCountOfDay newCount, s, p =>
      some (s.send userID i (p.updateCountOfDay newCount))
  | .updateDate newDate, s, p =>
      some (s.send userID i (p.updateDate formatter newDate))
  | .putOrder isConnectedToNetwork, s, p =>
      some (s.send userID i (p.putOrder isConnectedToNetwork))
  | .completed k now, s, p =>
      match s.answers[k]? with
      | some (j, result) =>
          if j = i then
            some ({ s with answers := s.answers.eraseIdx k }.send userID i
              (p.putOrderCompleted formatter now result))
          else none
      | none => none
  | .written k orderID, s, p =>
      match s.writes[k]? with
      | some x =>
          if s.store.orders.get (userKey userID orderID) = none then
            some (s.carryOut userID x (s.writes.eraseIdx k) orderID, p)
          else none
      | none => none
  | .lineCreated lineID d, s, p =>
      if s.Seen lineID then none
      else some (s.save userID (s.store.setLine userID lineID d), p)
  | .lineUpdated lineID n, s, p =>
      (s.store.updateLine userID lineID n).map fun store =>
        (s.save userID store, p)

def BasketStep [DecidableEq ι] (i : ι) (s : Backend ι) (p : BasketPresenter)
    (s' : Backend ι) (p' : BasketPresenter) : Prop :=
  ∃ e : BasketEvent Date, e.act? formatter userID i s p = some (s', p')

/-- Every line on the screen is in the basket, and no delete of it is on its
way. -/
def LinesThere (s : Backend ι) (p : BasketPresenter) : Prop :=
  ∀ l ∈ p.lineIDs, (s.store.line userID l).isSome ∧
    ∀ x ∈ s.writes, x.write ≠ .delete l

instance (s : Backend ι) (p : BasketPresenter) :
    Decidable (LinesThere userID s p) :=
  inferInstanceAs (Decidable (∀ l ∈ p.lineIDs, _))

/-- The button is pressed only while the lines on the screen are there. -/
def BasketEvent.Careful (s : Backend ι) (p : BasketPresenter) :
    BasketEvent Date → Prop
  | .putOrder true => LinesThere userID s p
  | _ => True

instance (s : Backend ι) (p : BasketPresenter) :
    DecidablePred (@BasketEvent.Careful ι Date userID s p)
  | .putOrder true => inferInstanceAs (Decidable (LinesThere userID s p))
  | .putOrder false | .snapshot _ _ | .updateCountOfDay _ | .updateDate _
  | .completed _ _ | .written _ _ | .lineCreated _ _ | .lineUpdated _ _ =>
      .isTrue trivial

def CarefulBasketStep [DecidableEq ι] (i : ι) (s : Backend ι)
    (p : BasketPresenter) (s' : Backend ι) (p' : BasketPresenter) : Prop :=
  ∃ e : BasketEvent Date, e.Careful userID s p ∧
    e.act? formatter userID i s p = some (s', p')

def opened (store : Store ℤ) : Config ι (Backend ι) BasketPresenter :=
  ⟨⟨store, [getOrder store userID], [], [], []⟩, fun _ => .init⟩

end Devices

/-! ## What an event can do -/

section Moves

variable {ι Date : Type} {formatter : DateFormatter Date} {userID : String}
  {i : ι} {s s' : Backend ι} {p p' : BasketPresenter}

/-- Four things can happen. `careful` is what is known of the button. -/
inductive BasketMoves (userID : String) (i : ι) (careful : Prop)
    (s : Backend ι) (p : BasketPresenter) :
    Backend ι → BasketPresenter → Prop
  -- something else is on the screen, and nothing is sent
  | shown {answers : List (ι × NetResult)} {p' : BasketPresenter}
      (hp : ∀ l ∈ p'.lineIDs, l ∈ p.lineIDs ∨ s.Seen l) :
      BasketMoves userID i careful s p { s with answers := answers } p'
  -- the order on the screen is sent
  | sent {p' : BasketPresenter} (order : Order)
      (ho : p.currentOrder = some order) (hp : p'.lineIDs = p.lineIDs)
      (hthere : careful → LinesThere userID s p) :
      BasketMoves userID i careful s p
        { s with
          writes := s.writes ++
            (NetworkService.putOrder (some userID) order).map fun w =>
              ⟨i, order, w⟩ } p'
  | written (x : Sent ι) (rest : List (Sent ι)) (orderID : String)
      (hperm : s.writes.Perm (x :: rest))
      (hfresh : s.store.orders.get (userKey userID orderID) = none) :
      BasketMoves userID i careful s p (s.carryOut userID x rest orderID) p
  -- an add has written the basket
  | saved (store : Store ℤ) (horders : store.orders = s.store.orders)
      (hnew : ∀ l, s.store.line userID l = none →
        store.line userID l = none ∨ ¬ s.Seen l) :
      BasketMoves userID i careful s p (s.save userID store) p

theorem BasketMoves.of_send {careful : Prop} {answers : List (ι × NetResult)}
    {r : BasketPresenter × List BasketEffect} (hnone : ordersSent r.2 = [])
    (hl : ∀ l ∈ r.1.lineIDs, l ∈ p.lineIDs ∨ s.Seen l)
    (h : some ({ s with answers := answers }.send userID i r) =
      some (s', p')) :
    BasketMoves userID i careful s p s' p' := by
  rw [Backend.send, hnone] at h
  simp only [List.flatMap_nil, List.append_nil] at h
  obtain ⟨rfl, rfl⟩ := Prod.mk.inj (Option.some.inj h)
  exact .shown hl

theorem BasketMoves.of_putOrder {isConnected : Bool}
    (h : some (s.send userID i (p.putOrder isConnected)) = some (s', p')) :
    BasketMoves userID i
      (BasketEvent.Careful userID s p
        (.putOrder isConnected : BasketEvent Date))
      s p s' p' := by
  rcases p.ordersSent_putOrder isConnected with hnone | ⟨order, ho, hc, hone⟩
  · refine .of_send hnone (fun l hl => Or.inl ?_) h
    rwa [lineIDs_putOrder] at hl
  · rw [Backend.send, hone, List.flatMap_singleton] at h
    obtain ⟨rfl, rfl⟩ := Prod.mk.inj (Option.some.inj h)
    subst hc
    exact .sent order ho (lineIDs_putOrder p true) id

theorem BasketEvent.moves [DecidableEq ι] {e : BasketEvent Date}
    (h : e.act? formatter userID i s p = some (s', p')) :
    BasketMoves userID i (e.Careful userID s p) s p s' p' := by
  cases e with
  | snapshot items now =>
      obtain ⟨hmem, h⟩ := Option.ite_none_right_eq_some.mp h
      refine .of_send (by simp) (fun l hl => Or.inr ⟨items, hmem, ?_⟩) h
      rwa [lineIDs_setOrder] at hl
  | updateCountOfDay newCount =>
      refine .of_send rfl (fun l hl => Or.inl ?_) h
      rwa [lineIDs_updateCountOfDay] at hl
  | updateDate newDate =>
      refine .of_send rfl (fun l hl => Or.inl ?_) h
      rwa [lineIDs_updateDate] at hl
  | putOrder isConnected => exact .of_putOrder h
  | completed k now =>
      simp only [act?] at h
      split at h
      · obtain ⟨-, h⟩ := Option.ite_none_right_eq_some.mp h
        exact .of_send (by simp) (fun l hl =>
          Or.inl (lineIDs_putOrderCompleted formatter now p _ hl)) h
      · cases h
  | written k orderID =>
      simp only [act?] at h
      split at h
      · next x hx =>
          obtain ⟨hfresh, h⟩ := Option.ite_none_right_eq_some.mp h
          obtain ⟨rfl, rfl⟩ := Prod.mk.inj (Option.some.inj h)
          obtain ⟨hlt, rfl⟩ := List.getElem?_eq_some_iff.mp hx
          exact .written _ _ orderID
            (List.getElem_cons_eraseIdx_perm hlt).symm hfresh
      · cases h
  | lineCreated lineID d =>
      obtain ⟨hseen, h⟩ := Option.ite_none_left_eq_some.mp h
      obtain ⟨rfl, rfl⟩ := Prod.mk.inj (Option.some.inj h)
      refine .saved _ rfl fun l hl => ?_
      rw [Store.line_setLine]
      by_cases hlid : l = lineID
      · exact Or.inr (hlid ▸ hseen)
      · rw [if_neg fun h => hlid h.2]
        exact Or.inl hl
  | lineUpdated lineID n =>
      obtain ⟨store, hstore, heq⟩ := Option.map_eq_some_iff.mp h
      obtain ⟨rfl, rfl⟩ := Prod.mk.inj heq
      obtain ⟨d, hd, rfl⟩ := Store.updateLine_eq_some.mp hstore
      refine .saved _ rfl fun l hl => Or.inl ?_
      rw [Store.line_setLine, if_neg]
      · exact hl
      · intro h
        rw [h.2, hd] at hl
        cases hl

end Moves

/-! ## The orders placed are the new order documents -/

section Stored

variable {ι Date : Type} {formatter : DateFormatter Date} {userID : String}

/-- The writes on their way belong to their orders, and the order documents
are those there were and those of the orders placed. -/
def Backend.Filed (userID : String) (s₀ : Store ℤ) (s : Backend ι) : Prop :=
  (∀ x ∈ s.writes, x.write ∈ NetworkService.putOrder (some userID) x.order) ∧
  ∀ id doc, s.store.orders.get (userKey userID id) = some doc ↔
    s₀.orders.get (userKey userID id) = some doc ∨
      ∃ o, (id, o) ∈ s.placed ∧ doc = .ofOrder o

theorem Backend.Filed.moves {s₀ : Store ℤ} {i : ι} {careful : Prop}
    {s s' : Backend ι} {p p' : BasketPresenter} (h : s.Filed userID s₀)
    (hm : BasketMoves userID i careful s p s' p') : s'.Filed userID s₀ := by
  obtain ⟨hwrites, hdocs⟩ := h
  cases hm with
  | shown => exact ⟨hwrites, hdocs⟩
  | sent order =>
      refine ⟨fun x hx => ?_, hdocs⟩
      rcases List.mem_append.mp hx with hx | hx
      · exact hwrites x hx
      · obtain ⟨w, hw, rfl⟩ := List.mem_map.mp hx
        exact hw
  | written x rest orderID hperm hfresh =>
      refine ⟨fun y hy => hwrites y (hperm.mem_iff.mpr (.tail x hy)), ?_⟩
      have hx := hwrites x (hperm.mem_iff.mpr (.head rest))
      cases hw : x.write with
      | delete l =>
          simp only [carryOut, hw]
          exact hdocs
      | addDocument data =>
          rw [hw] at hx
          obtain rfl : data = .ofOrder x.order := by
            simpa [mem_putOrder] using hx
          intro id doc
          simp only [carryOut, hw, save, PutWrite.apply, Store.setOrder,
            Keyed.Coll.get_put, userKey_inj, true_and]
          by_cases hid : id = orderID
          · subst hid
            -- the id is fresh, so neither side knows it from before
            have hold : ∀ doc, ¬ (s₀.orders.get (userKey userID id) = some doc ∨
                ∃ o, (id, o) ∈ s.placed ∧ doc = .ofOrder o) := by
              intro doc hdoc
              rw [← hdocs id doc, hfresh] at hdoc
              cases hdoc
            rw [if_pos rfl]
            constructor
            · intro hdoc
              exact Or.inr ⟨x.order, .head _, (Option.some.inj hdoc).symm⟩
            · rintro (hdoc | ⟨o, ho, rfl⟩)
              · exact absurd (Or.inl hdoc) (hold doc)
              · rcases List.mem_cons.mp ho with heq | ho
                · rw [(Prod.mk.inj heq).2]
                · exact absurd (Or.inr ⟨o, ho, rfl⟩) (hold _)
          · rw [if_neg hid, hdocs id doc]
            simp [hid]
  | saved store horders =>
      refine ⟨hwrites, fun id doc => ?_⟩
      simp only [save, horders]
      exact hdocs id doc

/-- In every run the new order documents are those of the orders placed. -/
theorem placed_stored [DecidableEq ι] {s₀ : Store ℤ}
    {c : Config ι (Backend ι) BasketPresenter}
    (h : Run (BasketStep formatter userID) (opened userID s₀) c)
    (id : String) (doc : OrderDoc) :
    c.shared.store.orders.get (userKey userID id) = some doc ↔
      s₀.orders.get (userKey userID id) = some doc ∨
        ∃ o, (id, o) ∈ c.shared.placed ∧ doc = .ofOrder o := by
  have hfiled : c.shared.Filed userID s₀ := by
    refine Run.invariant (I := fun d => d.shared.Filed userID s₀) ?_ h ?_
    · intro d i s p hd hstep
      obtain ⟨e, he⟩ := hstep
      exact hd.moves (BasketEvent.moves he)
    · refine ⟨fun x hx => (by cases hx), fun id doc => ?_⟩
      simp [opened]
  exact hfiled.2 id doc

end Stored

/-! ## Lines in orders -/

section Once

variable {ι Date : Type} {formatter : DateFormatter Date} {userID : String}
  {i : ι} {s s' : Backend ι} {p p' : BasketPresenter}

def Order.lineIDs (order : Order) : List String :=
  order.items.map BasketItem.itemID

theorem lineIDs_of_currentOrder {order : Order}
    (h : p.currentOrder = some order) : p.lineIDs = order.lineIDs := by
  simp [BasketPresenter.lineIDs, h, Order.lineIDs]

def Sent.places (l : String) (x : Sent ι) : Bool :=
  match x.write with
  | .addDocument _ => decide (l ∈ x.order.lineIDs)
  | .delete _ => false

/-- How many orders the line is in, placed or on their way. -/
def Backend.orderings (s : Backend ι) (l : String) : ℕ :=
  s.placed.countP (fun e => decide (l ∈ e.2.lineIDs)) +
    s.writes.countP (Sent.places l)

/-- What pressing the button carefully keeps: a line is in one order at most,
and if it is in one, it was in a basket once and has gone or is about to. -/
structure Backend.Sound (userID : String) (s : Backend ι) : Prop where
  once : ∀ l, s.orderings l ≤ 1
  seen : ∀ l, 0 < s.orderings l → s.Seen l
  gone : ∀ l, 0 < s.orderings l →
    s.store.line userID l = none ∨ ∃ x ∈ s.writes, x.write = .delete l

theorem countP_places_putOrder (order : Order) (l : String) :
    ((NetworkService.putOrder (some userID) order).map fun w =>
        (⟨i, order, w⟩ : Sent ι)).countP (Sent.places l) =
      if l ∈ order.lineIDs then 1 else 0 := by
  have hdeletes : ((order.items.map fun item => PutWrite.delete item.itemID).map
      fun w => (⟨i, order, w⟩ : Sent ι)).countP (Sent.places l) = 0 := by
    rw [List.countP_eq_zero]
    intro x hx
    obtain ⟨w, hw, rfl⟩ := List.mem_map.mp hx
    obtain ⟨item, -, rfl⟩ := List.mem_map.mp hw
    exact Bool.false_ne_true
  rw [NetworkService.putOrder, List.map_cons, List.countP_cons, hdeletes]
  simp [Sent.places]

theorem delete_mem_putOrder {order : Order} {l : String}
    (h : l ∈ order.lineIDs) :
    PutWrite.delete l ∈ NetworkService.putOrder (some userID) order := by
  obtain ⟨item, hitem, rfl⟩ := List.mem_map.mp h
  exact mem_putOrder.mpr (Or.inr ⟨item, hitem, rfl⟩)

theorem orderings_carryOut {x : Sent ι} {rest : List (Sent ι)}
    {orderID : String} (hperm : s.writes.Perm (x :: rest)) (l : String) :
    (s.carryOut userID x rest orderID).orderings l = s.orderings l := by
  have hcount := hperm.countP_eq (Sent.places l)
  rw [List.countP_cons] at hcount
  rw [Backend.orderings, Backend.orderings, hcount]
  cases hw : x.write with
  | addDocument data =>
      simp only [Backend.carryOut, hw, Backend.save, List.countP_cons,
        Sent.places]
      omega
  | delete l' =>
      simp only [Backend.carryOut, hw, Backend.save, Sent.places]
      simp

theorem orderings_sent (order : Order) (l : String) :
    ({ s with writes := s.writes ++
        (NetworkService.putOrder (some userID) order).map fun w =>
          ⟨i, order, w⟩ } : Backend ι).orderings l =
      s.orderings l + if l ∈ order.lineIDs then 1 else 0 := by
  simp only [Backend.orderings, List.countP_append, countP_places_putOrder]
  omega

theorem Backend.Sound.unordered (h : s.Sound userID) {l : String}
    (hin : (s.store.line userID l).isSome)
    (hno : ∀ x ∈ s.writes, x.write ≠ .delete l) : s.orderings l = 0 := by
  by_contra hpos
  rcases h.gone l (Nat.pos_of_ne_zero hpos) with hgone | ⟨x, hx, hw⟩
  · rw [hgone] at hin
    cases hin
  · exact hno x hx hw

theorem Backend.Sound.sent (h : s.Sound userID) {order : Order}
    (hseen : ∀ l ∈ order.lineIDs, s.Seen l)
    (hnone : ∀ l ∈ order.lineIDs, s.orderings l = 0) :
    ({ s with writes := s.writes ++
        (NetworkService.putOrder (some userID) order).map fun w =>
          ⟨i, order, w⟩ } : Backend ι).Sound userID := by
  refine ⟨fun l => ?_, fun l hl => ?_, fun l hl => ?_⟩
  · rw [orderings_sent]
    split
    · next hmem => rw [hnone l hmem]
    · exact h.once l
  · rw [orderings_sent] at hl
    split at hl
    · next hmem => exact hseen l hmem
    · exact h.seen l hl
  · rw [orderings_sent] at hl
    split at hl
    · next hmem =>
        exact Or.inr ⟨_, List.mem_append_right _
          (List.mem_map.mpr ⟨_, delete_mem_putOrder hmem, rfl⟩), rfl⟩
    · refine (h.gone l hl).imp_right fun hdelete => ?_
      obtain ⟨x, hx, hw⟩ := hdelete
      exact ⟨x, List.mem_append_left _ hx, hw⟩

theorem Backend.Seen.save {l : String} (h : s.Seen l) (store : Store ℤ) :
    (s.save userID store).Seen l := by
  obtain ⟨items, hitems, hl⟩ := h
  exact ⟨items, List.mem_cons_of_mem _ hitems, hl⟩

theorem Backend.Sound.carryOut (h : s.Sound userID) {x : Sent ι}
    {rest : List (Sent ι)} (hperm : s.writes.Perm (x :: rest))
    (orderID : String) :
    (s.carryOut userID x rest orderID).Sound userID := by
  refine ⟨fun l => ?_, fun l hl => ?_, fun l hl => ?_⟩
  · rw [orderings_carryOut hperm]
    exact h.once l
  · rw [orderings_carryOut hperm] at hl
    exact (h.seen l hl).save _
  · rw [orderings_carryOut hperm] at hl
    have hline : (s.carryOut userID x rest orderID).store.line userID l =
        if x.write = .delete l then none else s.store.line userID l :=
      PutWrite.line_apply s.store x.write l
    rw [hline]
    rcases h.gone l hl with hgone | ⟨y, hy, hw⟩
    · rw [hgone, ite_self]
      exact Or.inl rfl
    · rcases List.mem_cons.mp (hperm.mem_iff.mp hy) with rfl | hy
      · exact Or.inl (if_pos hw)
      · exact Or.inr ⟨y, hy, hw⟩

theorem Backend.Sound.save (h : s.Sound userID) {store : Store ℤ}
    (hnew : ∀ l, s.store.line userID l = none →
      store.line userID l = none ∨ ¬ s.Seen l) :
    (s.save userID store).Sound userID := by
  refine ⟨h.once, fun l hl => (h.seen l hl).save store, fun l hl => ?_⟩
  refine (h.gone l hl).imp_left fun hgone => ?_
  rcases hnew l hgone with hnone | hfresh
  · exact hnone
  · exact absurd (h.seen l hl) hfresh

theorem Backend.Sound.moves (h : s.Sound userID)
    (hp : ∀ l ∈ p.lineIDs, s.Seen l)
    (hm : BasketMoves userID i True s p s' p') : s'.Sound userID := by
  cases hm with
  | shown => exact ⟨h.once, h.seen, h.gone⟩
  | sent order ho _ hthere =>
      rw [lineIDs_of_currentOrder ho] at hp
      refine h.sent hp fun l hl => ?_
      rw [← lineIDs_of_currentOrder ho] at hl
      obtain ⟨hin, hno⟩ := hthere trivial l hl
      exact h.unordered hin hno
  | written x rest orderID hperm => exact h.carryOut hperm orderID
  | saved store _ hnew => exact h.save hnew

theorem Backend.Seen.moves {careful : Prop} {l : String} (h : s.Seen l)
    (hm : BasketMoves userID i careful s p s' p') : s'.Seen l := by
  cases hm with
  | shown | sent => exact h
  | written | saved => exact h.save _

theorem seen_moves {careful : Prop} (h : ∀ l ∈ p.lineIDs, s.Seen l)
    (hm : BasketMoves userID i careful s p s' p') :
    ∀ l ∈ p'.lineIDs, s'.Seen l := by
  intro l hl
  refine Backend.Seen.moves ?_ hm
  cases hm with
  | shown hp => exact (hp l hl).elim (h l) id
  | sent order ho hp => exact h l (hp ▸ hl)
  | written | saved => exact h l hl

def Backend.OrderedIn (userID : String) (s : Backend ι) (l id : String) :
    Prop :=
  ∃ o, (id, o) ∈ s.placed ∧ l ∈ o.lineIDs ∧
    s.store.orders.get (userKey userID id) = some (.ofOrder o)

/-- No line is in two order documents. -/
def Backend.OrderedOnce (userID : String) (s : Backend ι) : Prop :=
  ∀ l id id', s.OrderedIn userID l id → s.OrderedIn userID l id' → id = id'

theorem Backend.Sound.orderedOnce (h : s.Sound userID) :
    s.OrderedOnce userID := by
  intro l id id' hid hid'
  obtain ⟨o, ho, hl, -⟩ := hid
  obtain ⟨o', ho', hl', -⟩ := hid'
  have hlen : (s.placed.filter fun e => decide (l ∈ e.2.lineIDs)).length ≤ 1 := by
    rw [← List.countP_eq_length_filter]
    exact (Nat.le_add_right _ _).trans (h.once l)
  have hmem : ∀ e ∈ s.placed, l ∈ e.2.lineIDs →
      e ∈ s.placed.filter fun e => decide (l ∈ e.2.lineIDs) :=
    fun e he hle => List.mem_filter.mpr ⟨he, decide_eq_true hle⟩
  have he := hmem (id, o) ho hl
  have he' := hmem (id', o') ho' hl'
  cases hf : s.placed.filter fun e => decide (l ∈ e.2.lineIDs) with
  | nil =>
      rw [hf] at he
      cases he
  | cons e rest =>
      rw [hf, List.length_cons] at hlen
      obtain rfl : rest = [] := List.eq_nil_of_length_eq_zero (by omega)
      rw [hf, List.mem_singleton] at he he'
      exact congrArg Prod.fst (he.trans he'.symm)

/-- If the button is only pressed while every line on the screen is in the
basket with no delete of it on its way, no line is ordered twice. -/
theorem ordered_at_most_once [DecidableEq ι] {store : Store ℤ}
    {c : Config ι (Backend ι) BasketPresenter}
    (h : Run (CarefulBasketStep formatter userID) (opened userID store) c) :
    c.shared.OrderedOnce userID := by
  have hsound : c.shared.Sound userID ∧
      ∀ i, ∀ l ∈ (c.locals i).lineIDs, c.shared.Seen l := by
    refine Run.pointwise (G := Backend.Sound userID)
      (L := fun _ s p => ∀ l ∈ p.lineIDs, s.Seen l) ?_ ?_ h ?_
    · intro i s p s' p' hs hp hstep
      obtain ⟨e, hcare, he⟩ := hstep
      have hm := BasketEvent.moves he
      rw [eq_true hcare] at hm
      exact ⟨hs.moves hp hm, seen_moves hp hm⟩
    · intro i j s p s' p' pj _ _ _ hpj hstep l hl
      obtain ⟨e, -, he⟩ := hstep
      exact (hpj l hl).moves (BasketEvent.moves he)
    · refine ⟨⟨fun l => ?_, fun l hl => ?_, fun l hl => ?_⟩, fun i l hl => ?_⟩
      · exact Nat.zero_le 1
      · exact absurd hl (lt_irrefl 0)
      · exact absurd hl (lt_irrefl 0)
      · cases hl
  exact hsound.1.orderedOnce

end Once

/-! ## Two runs -/

section Runs

def june : DateFormatter Unit where
  string _ := "01.06.2020"
  date s := if s = "01.06.2020" then some () else none

def annsBasket : Store ℤ := (cameras 0).setLine "ann" "l" (cameraLine 2)

/-- The phone orders the basket; when all is written, the tablet hears of the
basket there is then. -/
theorem ordered_at_most_once_cameras :
    ∃ c : Config Bool (Backend Bool) BasketPresenter,
      Run (CarefulBasketStep june "ann") (opened "ann" annsBasket) c ∧
        c.shared.placed.map Prod.fst = ["o"] ∧
        c.shared.OrderedOnce "ann" := by
  obtain ⟨c, hrun, hplaced⟩ : ∃ c : Config Bool (Backend Bool) BasketPresenter,
      Run (CarefulBasketStep june "ann") (opened "ann" annsBasket) c ∧
        c.shared.placed.map Prod.fst = ["o"] :=
    exists_run_of_play
      (fun i (e : BasketEvent Unit) s p =>
        if e.Careful "ann" s p then e.act? june "ann" i s p else none)
      (fun i e s p s' p' h => by
        obtain ⟨hcare, he⟩ := Option.ite_none_right_eq_some.mp h
        exact ⟨e, hcare, he⟩)
      [(true, .snapshot (getOrder annsBasket "ann") ()),
        (true, .updateCountOfDay 3), (true, .putOrder true),
        (true, .written 0 "o"), (true, .written 0 "d"),
        (true, .completed 0 ()), (false, .snapshot [] ()),
        (false, .putOrder true)]
      (by decide +kernel)
  exact ⟨c, hrun, hplaced, ordered_at_most_once hrun⟩

/-- The basket is shown on the phone and on device `d`, sent from both, and
everything is carried out. -/
def sentFromBoth (d : Bool) : List (Bool × BasketEvent Unit) :=
  [(true, .snapshot (getOrder annsBasket "ann") ()),
    (d, .snapshot (getOrder annsBasket "ann") ()),
    (true, .putOrder true), (d, .putOrder true),
    (true, .written 0 "o"), (true, .written 0 "d"),
    (d, .written 0 "o'"), (d, .written 0 "d'")]

/-- The schedule can be played, and then the line is in two order
documents. -/
def SentTwice (l : List (Bool × BasketEvent Unit)) : Prop :=
  ∃ c : Config Bool (Backend Bool) BasketPresenter,
    play (fun i e => e.act? june "ann" i) l (opened "ann" annsBasket) =
      some c ∧
    Run (BasketStep june "ann") (opened "ann" annsBasket) c ∧
    c.shared.OrderedIn "ann" "l" "o" ∧ c.shared.OrderedIn "ann" "l" "o'" ∧
    ¬ c.shared.OrderedOnce "ann"

theorem sentTwice_of_placed {l : List (Bool × BasketEvent Unit)}
    (h : ((play (fun i e => e.act? june "ann" i) l
        (opened "ann" annsBasket)).map fun c =>
      c.shared.placed.map fun e => (e.1, e.2.lineIDs)) =
        some [("o'", ["l"]), ("o", ["l"])]) : SentTwice l := by
  obtain ⟨c, hc, hplaced⟩ := Option.map_eq_some_iff.mp h
  have hrun : Run (BasketStep june "ann") (opened "ann" annsBasket) c :=
    play_run (fun i e s p s' p' he => ⟨e, he⟩) hc
  have hin : ∀ id, (id, ["l"]) ∈ [("o'", ["l"]), ("o", ["l"])] →
      c.shared.OrderedIn "ann" "l" id := by
    intro id hid
    rw [← hplaced] at hid
    obtain ⟨⟨id', o⟩, ho, heq⟩ := List.mem_map.mp hid
    obtain ⟨rfl, hl⟩ := Prod.mk.inj heq
    refine ⟨o, ho, hl ▸ List.mem_singleton_self _, ?_⟩
    exact (placed_stored hrun id' (.ofOrder o)).mpr (Or.inr ⟨o, ho, rfl⟩)
  have ho := hin "o" (by simp)
  have ho' := hin "o'" (by simp)
  refine ⟨c, hc, hrun, ho, ho', fun honce => ?_⟩
  exact absurd (honce "l" "o" "o'" ho ho') (by decide)

/-- Two taps on the phone, or one on the phone and one on the tablet, and the
line is ordered twice. -/
theorem ordered_twice :
    SentTwice (sentFromBoth true) ∧ SentTwice (sentFromBoth false) :=
  ⟨sentTwice_of_placed (by decide +kernel),
    sentTwice_of_placed (by decide +kernel)⟩

end Runs

end PhoRent
