import PhoRent.Proofs.CallsEnd
import PhoRent.Proofs.ShopAtWork

/-!
# Work in progress can be finished

At any moment the documents together with the work in progress are a shop. It
would not be much of a shop if some of the work could not be finished. But no
call waits for anything, there is always an id that nobody has seen, and
answering a call does not get in anybody's way. So from wherever things are
there is a way on to where nothing is under way any more, with nobody asking
for anything new, and on this way, too, the shop only takes steps of customers.

What goes down is the work the calls may still need, with room left for the
lines they may still create.
-/

namespace PhoRent

open Machine NetworkService

open BasketScreen (plainDates)

namespace Call

variable {s : Store ℤ} {k : Call ℤ} {t : Turn}

theorem InHand.busy (h : k.InHand s) : k.Busy := by
  cases h with
  | listed hl href => exact List.cons_ne_nil _ _
  | ended h =>
      cases k with
      | add c => cases c <;> trivial
      | delete c => trivial
  | _ => trivial

/-- An answer that is yes is an operation carried out, or refused where the
document is not there. -/
theorem served_step (hbusy : k.Busy) (hrunning : ¬ k.Finished)
    (hok : t.ok = true) (hpick : t.pick = 0) (hfresh : t.Fresh s) :
    Served s k (k.step t s).1 (k.step t s).2 := by
  cases k with
  | add c =>
      cases c with
      | getItem req =>
          simp only [step, AddCall.step, hok, if_true]
          exact Or.inl (.add (.getItem req))
      | updateStock req item n =>
          simp only [step, AddCall.step, hok, if_true]
          cases hu : s.updateItem req.ref n with
          | none => exact Or.inr ⟨rfl, .add (.updateStock req item n)⟩
          | some s' => exact Or.inl (.add (.updateStock req item n hu))
      | queryBasket req item uid name =>
          simp only [step, AddCall.step, hok, if_true]
          exact Or.inl (.add (.queryBasket req item uid name))
      | setLine req uid d =>
          simp only [step, AddCall.step, hok, if_true]
          exact Or.inl (.add (.setLine req uid d t.autoId hfresh))
      | updateLines req uid pending err =>
          obtain ⟨⟨l, n⟩, rest, rfl⟩ := List.exists_cons_of_ne_nil hbusy
          simp only [step, AddCall.step, hok, hpick, if_true,
            List.getElem?_cons_zero]
          cases hu : s.updateLine uid l n with
          | none =>
              exact Or.inr ⟨rfl, .add (.updateLine req uid _ err 0 rfl)⟩
          | some s' =>
              exact Or.inl (.add (.updateLine req uid _ err 0 rfl hu))
      | done | failed => exact absurd trivial hrunning
  | delete c =>
      cases c with
      | getLine req =>
          simp only [step, DeleteCall.step, hok, if_true]
          exact Or.inl (.delete (.getLine req))
      | deleteLine req n =>
          simp only [step, DeleteCall.step, hok, if_true]
          exact Or.inl (.delete (.deleteLine req n))
      | getItem req n ref =>
          simp only [step, DeleteCall.step, hok, if_true]
          exact Or.inl (.delete (.getItem req n ref))
      | updateStock req n ref m =>
          simp only [step, DeleteCall.step, hok, if_true]
          cases hu : s.updateItem ref m with
          | none => exact Or.inr ⟨rfl, .delete (.updateStock req n ref m)⟩
          | some s' => exact Or.inl (.delete (.updateStock req n ref m hu))
      | done | failed => exact absurd trivial hrunning

end Call

/-- The backend answers; nobody asks for anything. -/
def WorldEvent.IsAnswer {Date : Type} : WorldEvent Date → Prop
  | .answered _ _ | .written _ _ _ => True
  | _ => False

namespace World

variable {Date : Type} {formatter : DateFormatter Date} {s₀ : Store ℤ}
  {w w' : World} {lines : ℕ}

abbrev Answering (formatter : DateFormatter Date) : World → World → Prop :=
  Run (World.handle formatter)
    fun w e => w.Possible e ∧ w.Orderly e ∧ e.IsAnswer

theorem Answering.run (h : Answering formatter w w') :
    Run (World.handle formatter) (fun w e => w.Possible e ∧ w.Orderly e)
      w w' :=
  h.mono fun _ _ he => ⟨he.1, he.2.1⟩

/-! ## Answers there can be -/

theorem exists_turn (w : World) : ∃ t : Turn, t.ok = true ∧ t.pick = 0 ∧
    t.Fresh w.store ∧ w.Unseen t.autoId := by
  obtain ⟨id, hdoc, hid⟩ := exists_docID
    (w.store.basket.docs.map (fun e => (ofLex e.1).2) ++
      (w.basketSnapshots.flatMap (List.map BasketItem.itemID) ++
        w.calls.filterMap Call.lineID?))
  simp only [List.mem_append, not_or, List.mem_map, List.mem_flatMap,
    List.mem_filterMap, not_exists, not_and] at hid
  obtain ⟨hlines, hsnapshots, hcalls⟩ := hid
  refine ⟨⟨true, id, 0⟩, rfl, rfl, fun uid => ?_, hdoc, ?_, hcalls⟩
  · by_contra hline
    obtain ⟨d, hd⟩ := Option.ne_none_iff_exists'.mp hline
    exact hlines _ (Keyed.Coll.mem_docs_of_get hd) rfl
  · exact fun items hitems item hitem => hsnapshots items hitems item hitem

theorem exists_orderID (w : World) :
    ∃ orderID, ∀ u, w.store.orders.get (userKey u orderID) = none := by
  obtain ⟨orderID, -, hid⟩ :=
    exists_docID (w.store.orders.docs.map fun e => (ofLex e.1).2)
  refine ⟨orderID, fun u => ?_⟩
  by_contra hget
  obtain ⟨d, hd⟩ := Option.ne_none_iff_exists'.mp hget
  exact hid (List.mem_map.mpr ⟨_, Keyed.Coll.mem_docs_of_get hd, rfl⟩)

/-! ## The calls -/

def work (lines : ℕ) (w : World) : ℕ := (w.calls.map (Call.work lines)).sum

def Room (lines : ℕ) (w : World) : Prop :=
  w.store.lineCount + (w.calls.map Call.creates).sum ≤ lines

theorem sum_set_calls (f : Call ℤ → ℕ) {calls : List (Call ℤ)} {i : ℕ}
    (hlt : i < calls.length) (k' : Call ℤ) :
    ((calls.set i k').map f).sum + f calls[i] = (calls.map f).sum + f k' := by
  have hold := ((List.getElem_cons_eraseIdx_perm hlt).map f).sum_eq
  have hnew := ((List.set_perm_cons_eraseIdx hlt k').map f).sum_eq
  rw [List.map_cons, List.sum_cons] at hold hnew
  omega

/-- A call that is not over is answered, and there is less to do. -/
theorem AtWork.exists_answered (h : w.AtWork formatter s₀) (hroom : w.Room lines)
    {call : Call ℤ} (hcall : call ∈ w.calls) (hrunning : ¬ call.Finished) :
    ∃ w', Handles (World.handle formatter)
        (fun w e => w.Possible e ∧ w.Orderly e ∧ e.IsAnswer) w w' ∧
      w'.Room lines ∧ w'.work lines < w.work lines := by
  obtain ⟨i, hlt, rfl⟩ := List.mem_iff_getElem.mp hcall
  obtain ⟨t, hok, hpick, hfresh, hunseen⟩ := w.exists_turn
  have hbusy := (h.tidy.inHand _ hcall).busy
  have hserved := Call.served_step hbusy hrunning hok hpick hfresh
  generalize hstep : w.calls[i].step t w.store = z at hserved
  obtain ⟨s', k'⟩ := z
  have hmine : Call.creates w.calls[i] ≤ (w.calls.map Call.creates).sum :=
    List.le_sum_of_mem (List.mem_map_of_mem hcall)
  have hspent : Call.Spent lines w.store w.calls[i] s' k' :=
    hserved.spent (by rw [Room] at hroom; omega)
  refine ⟨{ w with store := s', calls := w.calls.set i k' },
    ⟨.answered i t, ⟨hfresh, ⟨hok, hunseen⟩, trivial⟩, ?_⟩, ?_, ?_⟩
  · rw [World.handle, List.getElem?_eq_getElem hlt, Option.map_some, hstep]
  · have hsum := sum_set_calls Call.creates hlt k'
    have hcreated := hspent.created
    rw [Room] at hroom
    change s'.lineCount + ((w.calls.set i k').map Call.creates).sum ≤ lines
    omega
  · have hsum := sum_set_calls (Call.work lines) hlt k'
    have hless := hspent.work
    change ((w.calls.set i k').map (Call.work lines)).sum <
      (w.calls.map (Call.work lines)).sum
    omega

/-- By induction on the work there is left. -/
theorem AtWork.exists_finished (h : w.AtWork formatter s₀) (hs₀ : s₀.Sound)
    (hroom : w.Room lines) :
    ∃ w', Answering formatter w w' ∧ ∀ call ∈ w'.calls, call.Finished := by
  generalize hn : w.work lines = n
  induction n using Nat.strong_induction_on generalizing w with
  | _ n ih =>
      by_cases hall : ∀ call ∈ w.calls, call.Finished
      · exact ⟨w, .refl, hall⟩
      · simp only [not_forall] at hall
        obtain ⟨call, hcall, hrunning⟩ := hall
        obtain ⟨w₁, hfirst, hroom₁, hless⟩ :=
          h.exists_answered hroom hcall hrunning
        have hanswer : Answering formatter w w₁ := .single hfirst
        obtain ⟨hw₁, -⟩ := h.run hs₀ hanswer.run
        obtain ⟨w', hrest, hall'⟩ := ih _ (hn ▸ hless) hw₁ hroom₁ rfl
        exact ⟨w', .head hfirst hrest, hall'⟩

/-! ## The writes -/

theorem exists_written (formatter : DateFormatter Date) (w : World) :
    ∃ w', Answering formatter w w' ∧ w'.calls = w.calls ∧
      w'.writes = [] := by
  generalize hn : w.writes = writes
  induction writes generalizing w with
  | nil => exact ⟨w, .refl, rfl, hn⟩
  | cons x rest ih =>
      obtain ⟨orderID, hnew⟩ := w.exists_orderID
      let w₁ : World :=
        { w with
          store := x.write.apply x.userID orderID w.store
          writes := rest }
      have hfirst : Handles (World.handle formatter)
          (fun w e => w.Possible e ∧ w.Orderly e ∧ e.IsAnswer) w w₁ := by
        refine ⟨.written 0 true orderID, ⟨hnew, rfl, trivial⟩, ?_⟩
        rw [World.handle, hn]
        rfl
      obtain ⟨w', hrest, hcalls, hwrites⟩ := ih w₁ rfl
      exact ⟨w', .head hfirst hrest, hcalls, hwrites⟩

/-- As long as nobody gets in anybody's way: whatever has happened so far, what
is under way can be finished by answers of the backend alone, and then the
documents alone are a shop, which customers could have brought about from the
one there is now. -/
theorem settles_of_run (hs : s₀.Sound) (hids : s₀.OwnIDs)
    (hlines : ∀ uid l d, s₀.line uid l = some d → s₀.Copied d)
    (hcounts : s₀.Counts (0 ≤ ·) (1 ≤ ·))
    (h : Run (World.handle formatter) (fun w e => w.Possible e ∧ w.Orderly e)
      (start s₀) w) :
    ∃ w', Answering formatter w w' ∧ (∀ call ∈ w'.calls, call.Finished) ∧
      w'.writes = [] ∧ Shop.Run w.shop w'.store.shop := by
  obtain ⟨hw, -⟩ := (atWork_start hs hids hlines hcounts).run hs h
  obtain ⟨w₁, hcalled, hfinished⟩ := hw.exists_finished hs (Nat.le_refl _)
  obtain ⟨w', hwritten, hcalls, hwrites⟩ := w₁.exists_written formatter
  rw [← hcalls] at hfinished
  have hrun : Answering formatter w w' := hcalled.trans hwritten
  obtain ⟨-, hshop⟩ := hw.run hs hrun.run
  rw [shop_of_finished hfinished hwrites] at hshop
  exact ⟨w', hrun, hfinished, hwrites, hshop⟩

/-- Ann's order is on its way, and Bob's camera in hand. -/
theorem settles_of_run_cameras : ∃ w w' : World,
    Run (World.handle plainDates) (fun w e => w.Possible e ∧ w.Orderly e)
        (start pricedCamera) w ∧
      (∃ call ∈ w.calls, ¬ call.Finished) ∧ w.writes.length = 2 ∧
      Answering plainDates w w' ∧ (∀ call ∈ w'.calls, call.Finished) ∧
      w'.writes = [] ∧ Shop.Run w.shop w'.store.shop := by
  obtain ⟨w, hrun, hcalls, hwrites⟩ :
      ∃ w, Run (World.handle plainDates)
          (fun w e => w.Possible e ∧ w.Orderly e) (start pricedCamera) w ∧
        (∃ call ∈ w.calls, ¬ call.Finished) ∧ w.writes.length = 2 :=
    exists_orderly_run (camerasGone.take 14) (by decide +kernel)
  obtain ⟨w', hanswers, hcalls', hwrites', hshop⟩ := settles_of_run
    pricedCamera_sound pricedCamera_ownIDs pricedCamera_lines
    pricedCamera_counts hrun
  exact ⟨w, w', hrun, hcalls, hwrites, hanswers, hcalls', hwrites', hshop⟩

end World

end PhoRent
