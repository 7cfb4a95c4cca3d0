import PhoRent.Proofs.OwnRequests

/-!
# One's own basket and orders

The catalogue is everybody's, and with it the counts. A basket and the orders
are one user's. Nothing in the database keeps others out: the functions may
write anywhere, and which basket a call writes to is what it has taken along
since it was asked for.

It takes along the user who asked, and no other: as long as nobody asks for
anything in a user's name, the listeners of this user are given the same
basket and the same orders, whatever else goes on.
-/

namespace PhoRent

open Machine NetworkService

open BasketScreen (plainDates)

/-! ## Documents -/

section Documents

variable {s s' : Store ℤ} {uid : String}

theorem userDocs_congr {α : Type} {c c' : Keyed.Coll UserKey α}
    (h : ∀ id, c.get (userKey uid id) = c'.get (userKey uid id)) :
    (c.docs.filter fun e => (ofLex e.1).1 = uid) =
      c'.docs.filter fun e => (ofLex e.1).1 = uid := by
  refine Keyed.Coll.filter_docs_congr
    (p := fun k : UserKey => (ofLex k).1 = uid) fun k hk => ?_
  subst hk
  exact h (ofLex k).2

theorem getOrder_congr (h : ∀ l, s.line uid l = s'.line uid l) :
    getOrder s uid = getOrder s' uid := by
  rw [getOrder, Store.lines, userDocs_congr h, getOrder, Store.lines]

theorem getPreviousOrders_congr (h : ∀ orderID,
    s.orders.get (userKey uid orderID) = s'.orders.get (userKey uid orderID)) :
    getPreviousOrders s uid = getPreviousOrders s' uid := by
  rw [getPreviousOrders, Store.ordersOf, userDocs_congr h, getPreviousOrders,
    Store.ordersOf]

end Documents

/-! ## Calls -/

namespace Call

/-- Whose basket the call may still write to. -/
def user? : Call ℤ → Option String
  | .add (.getItem req) | .add (.updateStock req _ _) => req.uid
  | .add (.queryBasket _ _ uid _) | .add (.setLine _ uid _)
  | .add (.updateLines _ uid _ _) => some uid
  | .delete (.getLine req) | .delete (.deleteLine req _) => some req.uid
  | _ => none

/-- The step is for the call's user only, and so is what comes after it. -/
structure Minds (uid : String) (s : Store ℤ) (s' : Store ℤ) (k' : Call ℤ) :
    Prop where
  user : k'.user? ≠ some uid
  lines : ∀ l, s'.line uid l = s.line uid l

section Steps

variable {s s' : Store ℤ} {k k' : Call ℤ} {uid : String}

theorem Minds.of_same (h : k'.user? ≠ some uid) : Minds uid s s k' :=
  ⟨h, fun _ => rfl⟩

theorem user?_settle {req : AddReq ℤ} {u : String}
    {pending : List (String × ℤ)} {err : Option JsError} (h : u ≠ uid) :
    user? (.add (AddCall.settle req u pending err)) ≠ some uid :=
  AddCall.settle_ind (fun c => user? (.add c) ≠ some uid)
    (Option.some_ne_none uid).symm (fun _ => (Option.some_ne_none uid).symm)
    fun hu => h (Option.some.inj hu)

theorem line_setLine_of_ne (h : uid ≠ u) (l l' : String) (d : LineDoc ℤ) :
    (s.setLine u l d).line uid l' = s.line uid l' := by
  rw [Store.line_setLine, if_neg]
  exact fun hu => h hu.1

theorem minds_of_acts (hk : k.user? ≠ some uid) (ha : Call.Acts s k s' k') :
    Minds uid s s' k' := by
  have hnone : (none : Option String) ≠ some uid := (Option.some_ne_none _).symm
  cases ha with
  | add ha =>
      cases ha with
      | getItem req =>
          refine .of_same ?_
          cases s.items req.ref with
          | none => exact hnone
          | some item =>
              rw [AddCall.onItem]
              split
              · exact hk
              · exact hnone
      | updateStock req item n hu =>
          refine ⟨?_, fun l => Store.updateItem_line hu uid l⟩
          rw [AddCall.onStockUpdated]
          split
          · exact hnone
          · next u hreq =>
              split
              · exact hnone
              · intro hu
                exact hk (hreq.trans hu)
      | queryBasket req item u name =>
          refine .of_same ?_
          cases s.linesNamed u name with
          | nil =>
              rw [AddCall.onBasket]
              split
              · exact hk
              · exact hnone
          | cons e rest => exact hk
      | setLine req u d autoId =>
          have hu : uid ≠ u := fun hu => hk (congrArg some hu.symm)
          exact ⟨hnone, fun l => line_setLine_of_ne hu _ l _⟩
      | updateLine req u pending err i hget hs =>
          have hu : uid ≠ u := fun hu => hk (congrArg some hu.symm)
          obtain ⟨d, -, rfl⟩ := Store.updateLine_eq_some.mp hs
          exact ⟨user?_settle hu.symm, fun l => line_setLine_of_ne hu _ l _⟩
  | delete ha =>
      cases ha with
      | getLine req =>
          refine .of_same ?_
          cases s.line req.uid req.itemID with
          | none => exact hnone
          | some d => exact hk
      | deleteLine req n =>
          refine ⟨?_, fun l => ?_⟩
          · rw [DeleteCall.onDeleted]
            split <;> exact hnone
          · rw [Store.line_deleteLine, if_neg]
            exact fun hu => hk (congrArg some hu.1.symm)
      | getItem req n ref =>
          refine .of_same ?_
          cases s.items ref <;> exact hnone
      | updateStock req n ref m hu =>
          exact ⟨hnone, fun l => Store.updateItem_line hu uid l⟩

theorem minds_of_fails (hk : k.user? ≠ some uid) (hf : Call.Fails s k k') :
    Minds uid s s k' := by
  have hnone : (none : Option String) ≠ some uid := (Option.some_ne_none _).symm
  refine .of_same ?_
  cases hf with
  | add hf =>
      cases hf with
      | updateLine => exact user?_settle fun hu => hk (congrArg some hu)
      | _ => exact hnone
  | delete hf => cases hf <;> exact hnone

theorem Answered.minds (hk : k.user? ≠ some uid)
    (h : Call.Answered s k s' k') : Minds uid s s' k' :=
  h.ind (P := fun s' k' => Minds uid s s' k') (.of_same hk)
    (fun _ _ ha => minds_of_acts hk ha) fun _ hf => minds_of_fails hk hf

end Steps

section Handlers

variable {currentUser : Option String} {v : Returned} {call : Call ℤ}

theorem user?_of_delete {data : DeleteData}
    (h : deleteItemFromBasket (some data) currentUser = .returned v call) :
    call.user? = currentUser := by
  unfold deleteItemFromBasket at h
  simp only at h
  split at h
  · cases h
  · split at h <;> cases h
    rfl

theorem user?_of_add {data : AddData ℤ}
    (h : PhoRent.addItemInBasket (some data) currentUser = .returned v call) :
    call.user? = currentUser := by
  unfold PhoRent.addItemInBasket at h
  simp only at h
  split at h <;> cases h
  rfl

end Handlers

end Call

/-! ## The world -/

/-- In whose name something is asked for. -/
def WorldEvent.user? {Date : Type} : WorldEvent Date → Option String
  | .basket _ _ currentUser | .page _ _ currentUser => currentUser
  | _ => none

namespace World

variable {Date : Type} {formatter : DateFormatter Date} {w w' : World}
  {uid : String} {s : Store ℤ} {currentUser : Option String}

/-- Nothing is under way for the user, and the documents are those of `s`. -/
structure Untouched (uid : String) (s : Store ℤ) (w : World) : Prop where
  calls : ∀ call ∈ w.calls, call.user? ≠ some uid
  writes : ∀ x ∈ w.writes, x.userID ≠ uid
  lines : ∀ l, w.store.line uid l = s.line uid l
  orders : ∀ orderID, w.store.orders.get (userKey uid orderID) =
    s.orders.get (userKey uid orderID)

theorem write_of_foldl_perform {requests : List BasketEffect} {x : SentWrite}
    (h : x ∈ (requests.foldl (World.perform currentUser) w).writes) :
    x ∈ w.writes ∨ currentUser = some x.userID := by
  induction requests generalizing w with
  | nil => exact Or.inl h
  | cons request rest ih =>
      rcases ih h with h | h
      · cases request with
        | putOrder order =>
            refine (List.mem_append.mp h).imp_right fun hx => ?_
            obtain ⟨write, hwrite, rfl⟩ := List.mem_map.mp hx
            cases currentUser with
            | none => cases hwrite
            | some u => rfl
        | removeFromBasket itemID dbItemID categoryID =>
            refine Or.inl ?_
            simp only [perform] at h
            cases hr : deleteItemFromBasket (V := ℤ) (some ⟨.str itemID,
              .str categoryID, .str dbItemID⟩) currentUser with
            | threw e => rw [hr] at h; exact h
            | returned v call => rw [hr] at h; exact h
        | _ => exact Or.inl h
      · exact Or.inr h

theorem Untouched.basket (h : w.Untouched uid s) {k : ℕ}
    {e : BasketScreenEvent Date} (huser : currentUser ≠ some uid)
    (hs : w.handle formatter (.basket k e currentUser) = some w') :
    w'.Untouched uid s := by
  obtain ⟨screen, -, hs⟩ := Option.bind_eq_some_iff.mp hs
  obtain ⟨screen', -, rfl⟩ := Option.map_eq_some_iff.mp hs
  let w₁ : World := { w with baskets := w.baskets.set k screen' }
  obtain ⟨calls, writes, heq⟩ :=
    w₁.exists_foldl_perform currentUser (screen.requests e)
  refine ⟨fun call hcall => ?_, fun x hx => ?_, ?_, ?_⟩
  · rcases call_of_foldl_perform hcall with
      hcall | ⟨itemID, dbItemID, categoryID, v, -, hstarts⟩
    · exact h.calls call hcall
    · rw [Call.user?_of_delete hstarts]
      exact huser
  · rcases write_of_foldl_perform hx with hx | hx
    · exact h.writes x hx
    · rintro rfl
      exact huser hx
  · rw [heq]
    exact h.lines
  · rw [heq]
    exact h.orders

theorem Untouched.page (h : w.Untouched uid s) {k : ℕ} {e : CategoryEvent}
    (huser : currentUser ≠ some uid)
    (hs : w.handle formatter (.page k e currentUser) = some w') :
    w'.Untouched uid s := by
  obtain ⟨page, -, hs⟩ := Option.bind_eq_some_iff.mp hs
  obtain ⟨screen', -, rfl⟩ := Option.map_eq_some_iff.mp hs
  let w₁ : World :=
    { w with pages := w.pages.set k { page with screen := screen' } }
  obtain ⟨calls, heq⟩ := w₁.exists_addItemInBasket page currentUser e
  refine ⟨fun call hcall => ?_, ?_, ?_, ?_⟩
  · rcases call_of_addItemInBasket hcall with
      hcall | ⟨row, count, item, v, -, hstarts⟩
    · exact h.calls call hcall
    · rw [Call.user?_of_add hstarts]
      exact huser
  · rw [heq]
    exact h.writes
  · rw [heq]
    exact h.lines
  · rw [heq]
    exact h.orders

theorem Untouched.answered (h : w.Untouched uid s) {i : ℕ} {t : Turn}
    (hfresh : t.Fresh w.store)
    (hs : w.handle formatter (.answered i t) = some w') :
    w'.Untouched uid s := by
  obtain ⟨call, hcall, rfl⟩ := Option.map_eq_some_iff.mp hs
  have hanswered : Call.Answered w.store call (call.step t w.store).1
      (call.step t w.store).2 := ⟨t, hfresh, rfl⟩
  have hminds :=
    hanswered.minds (h.calls call (List.mem_of_getElem? hcall))
  refine ⟨fun call' hcall' => ?_, h.writes, fun l => ?_, fun orderID => ?_⟩
  · rcases List.mem_or_eq_of_mem_set hcall' with hcall' | rfl
    · exact h.calls call' hcall'
    · exact hminds.user
  · exact (hminds.lines l).trans (h.lines l)
  · rw [← h.orders orderID, ← Call.orders_of_answered hanswered]

theorem Untouched.written (h : w.Untouched uid s) {j : ℕ} {ok : Bool}
    {orderID : String}
    (hs : w.handle formatter (.written j ok orderID) = some w') :
    w'.Untouched uid s := by
  obtain ⟨⟨user, write⟩, hx, rfl⟩ := Option.map_eq_some_iff.mp hs
  have huser : user ≠ uid := h.writes _ (List.mem_of_getElem? hx)
  have hrest : ∀ x ∈ w.writes.eraseIdx j, x.userID ≠ uid := fun x hx =>
    h.writes x (List.mem_of_mem_eraseIdx hx)
  cases ok with
  | false => exact ⟨h.calls, hrest, h.lines, h.orders⟩
  | true =>
      cases write with
      | addDocument data =>
          refine ⟨h.calls, hrest, h.lines, fun orderID' => ?_⟩
          change (w.store.orders.put (userKey user orderID) data).get _ = _
          rw [Keyed.Coll.get_put, if_neg, h.orders]
          rw [userKey_inj]
          exact fun heq => huser heq.1.symm
      | delete itemID =>
          refine ⟨h.calls, hrest, fun l => ?_, h.orders⟩
          change (w.store.deleteLine user itemID).line uid l = _
          rw [Store.line_deleteLine, if_neg, h.lines]
          exact fun heq => huser heq.1.symm

/-- The step lemma: nothing others ask for, and nothing that comes of it, is
about the user's documents. -/
theorem Untouched.handle (h : w.Untouched uid s) {e : WorldEvent Date}
    (hok : w.Possible e) (huser : e.user? ≠ some uid)
    (hs : w.handle formatter e = some w') : w'.Untouched uid s := by
  cases e with
  | basketOpened | pageOpened | basketRead | itemsRead =>
      obtain rfl := Option.some.inj hs
      exact ⟨h.calls, h.writes, h.lines, h.orders⟩
  | basket k e currentUser => exact h.basket huser hs
  | page k e currentUser => exact h.page huser hs
  | answered i t => exact h.answered hok hs
  | written j ok orderID => exact h.written hs

/-- Where nothing is under way for a user and nobody asks for anything in this
user's name, the listeners of the basket and of the history are given what
they were given before, whatever everybody else does. -/
theorem untouched_of_run (hcalls : ∀ call ∈ w.calls, call.user? ≠ some uid)
    (hwrites : ∀ x ∈ w.writes, x.userID ≠ uid)
    (h : Run (World.handle formatter)
      (fun w e => w.Possible e ∧ e.user? ≠ some uid) w w') :
    getOrder w'.store uid = getOrder w.store uid ∧
      getPreviousOrders w'.store uid = getPreviousOrders w.store uid := by
  have huntouched : w'.Untouched uid w.store :=
    h.invariant (I := fun w' => w'.Untouched uid w.store)
      (fun _ _ _ hw hok hs => hw.handle hok.1 hok.2 hs)
      ⟨hcalls, hwrites, fun _ => rfl, fun _ => rfl⟩
  exact ⟨getOrder_congr huntouched.lines,
    getPreviousOrders_congr huntouched.orders⟩

/-- What is Ann's stays Ann's while Bob takes the third camera and orders it. -/
def bobsOrder : List (WorldEvent String) :=
  [.page 0 (.addTapped 0 1 true) (some "bob"),
    .answered 1 ⟨true, "", 0⟩, .answered 1 ⟨true, "", 0⟩,
    .answered 1 ⟨true, "", 0⟩, .answered 1 ⟨true, "b", 0⟩,
    .basketOpened, .basketRead "bob",
    .basket 0 (.snapshot [{ cameraDescribed with itemID := "b", count := 1 }]
      "01.06.2020") (some "bob"),
    .basket 0 (.orderTapped true) (some "bob"),
    .written 0 true "o", .written 0 true ""]

theorem untouched_of_run_ann : ∃ w w' : World,
    Run (World.handle plainDates) World.Possible (start pricedCamera) w ∧
      Run (World.handle plainDates)
        (fun w e => w.Possible e ∧ e.user? ≠ some "ann") w w' ∧
      getOrder w.store "ann" = [cameraDescribed] ∧
      w'.store.stock camera = 0 ∧ w'.store.ordered camera = 1 ∧
      getOrder w'.store "ann" = [cameraDescribed] ∧
      getPreviousOrders w'.store "ann" = [] := by
  obtain ⟨w, w', hfirst, hlater, hcalls, hwrites, hbasket, horders, hstock,
      hbob⟩ :
      ∃ w w', Run (World.handle plainDates)
          (fun w e => w.possible? e = true) (start pricedCamera) w ∧
        Run (World.handle plainDates)
          (fun w e => w.possible? e = true ∧ e.user? ≠ some "ann") w w' ∧
        (∀ call ∈ w.calls, call.user? ≠ some "ann") ∧
        (∀ x ∈ w.writes, x.userID ≠ "ann") ∧
        getOrder w.store "ann" = [cameraDescribed] ∧
        getPreviousOrders w.store "ann" = [] ∧
        w'.store.stock camera = 0 ∧ w'.store.ordered camera = 1 :=
    exists_runs_of_play (cameraOrdered.take 8) bobsOrder (by decide +kernel)
  have hothers : Run (World.handle plainDates)
      (fun w e => w.Possible e ∧ e.user? ≠ some "ann") w w' :=
    hlater.mono fun _ _ he => ⟨possible_of_possible? he.1, he.2⟩
  obtain ⟨hbasket', horders'⟩ := untouched_of_run hcalls hwrites hothers
  exact ⟨w, w', hfirst.mono fun _ _ he => possible_of_possible? he, hothers,
    hbasket, hstock, hbob, hbasket'.trans hbasket, horders'.trans horders⟩

end World

end PhoRent
