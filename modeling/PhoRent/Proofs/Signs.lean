import PhoRent.Proofs.Positions

/-!
# The signs of the counts

A count written by a call was computed from a count read earlier, and by the
time it is written that reading may be long out of date. It is still a count
that was in order when it was read. So what has to be said of a call under
way is only that the counts it has captured are in order themselves; the store
then stays in order whatever the other calls do in between, and whichever of
them fail.
-/

namespace PhoRent

open Interleave

/-- A call an honest client can have started: an add of at least one unit, or
any removal. -/
inductive Honest : Call ℤ → Prop
  | add (data : AddData ℤ) (auth : Option String) (hn : 1 ≤ data.count)
      {v : Returned} {call : Call ℤ}
      (h : addItemInBasket (some data) auth = .returned v call) : Honest call
  | delete (data : DeleteData) (auth : Option String) {v : Returned}
      {call : Call ℤ}
      (h : deleteItemFromBasket (some data) auth = .returned v call) :
      Honest call

/-- The counts a suspended call will go on with: those it adds are at least
one, those it has computed for the stock at least zero. -/
def Call.SignsKept : Call ℤ → Prop
  | .add (.getItem req) | .add (.queryBasket req _ _ _) =>
      1 ≤ req.elementCount
  | .add (.updateStock req _ n) => 1 ≤ req.elementCount ∧ 0 ≤ n
  | .add (.setLine _ _ d) => 1 ≤ d.count
  | .add (.updateLines _ _ pending _) => ∀ e ∈ pending, 1 ≤ e.2
  | .delete (.deleteLine _ n) | .delete (.getItem _ n _) => 1 ≤ n
  | .delete (.updateStock _ _ _ m) => 0 ≤ m
  | _ => True

theorem Honest.signsKept {call : Call ℤ} (h : Honest call) :
    call.SignsKept := by
  cases h with
  | add data auth hn h =>
      unfold addItemInBasket at h
      simp only at h
      split at h
      · cases h
        exact hn
      · cases h
  | delete data auth h =>
      obtain ⟨req, rfl⟩ := deleteItemFromBasket_starts h
      trivial

section Steps

variable {s s' : Store ℤ} {k k' : Call ℤ}

theorem Call.SignsKept.settle {req : AddReq ℤ} {uid : String}
    {pending : List (String × ℤ)} (h : ∀ e ∈ pending, 1 ≤ e.2) (i : ℕ)
    (err : Option JsError) :
    Call.SignsKept (.add (AddCall.settle req uid (pending.eraseIdx i) err)) :=
  AddCall.settle_ind (fun c => Call.SignsKept (.add c)) trivial
    (fun _ => trivial) fun e he => h e (List.mem_of_mem_eraseIdx he)

theorem Call.SignsKept.onBasket {req : AddReq ℤ} {item : ItemDoc ℤ}
    {uid name : String} (hs : s.Counts (0 ≤ ·) (1 ≤ ·))
    (hn : 1 ≤ req.elementCount) : Call.SignsKept
      (.add (AddCall.onBasket req item uid (s.linesNamed uid name))) := by
  cases hdocs : s.linesNamed uid name with
  | nil => exact hn
  | cons e rest =>
      rw [AddCall.onBasket, ← hdocs]
      · intro e' he'
        obtain ⟨e, he, rfl⟩ := List.mem_map.mp he'
        have hd := hs.line _ _ _ (Store.mem_linesNamed.mp he).1
        rw [Count.add_int]
        omega
      · simp

/-- An operation carried out writes a count the call had captured in order,
and captures counts in order. -/
theorem Call.SignsKept.acts (hs : s.Counts (0 ≤ ·) (1 ≤ ·))
    (hk : k.SignsKept) (ha : Call.Acts s k s' k') :
    s'.Counts (0 ≤ ·) (1 ≤ ·) ∧ k'.SignsKept := by
  cases ha with
  | add ha =>
      cases ha with
      | getItem req =>
          refine ⟨hs, ?_⟩
          cases hi : s.items req.ref with
          | none => trivial
          | some item =>
              rw [AddCall.onItem]
              split
              · next hge =>
                  have hle : req.elementCount ≤ item.count := by
                    simpa using hge
                  exact ⟨hk, sub_nonneg.mpr hle⟩
              · trivial
      | updateStock req item n hu =>
          obtain ⟨hn, hm⟩ := hk
          refine ⟨hs.updateItem hm hu, ?_⟩
          rw [AddCall.onStockUpdated]
          split
          · trivial
          · split
            · trivial
            · exact hn
      | queryBasket req item uid name => exact ⟨hs, .onBasket hs hk⟩
      | setLine req uid d autoId hfresh => exact ⟨hs.setLine hk, trivial⟩
      | updateLine req uid pending err i hget hu =>
          obtain ⟨d, -, rfl⟩ := Store.updateLine_eq_some.mp hu
          exact ⟨hs.setLine (hk _ (List.mem_of_getElem? hget)),
            .settle hk i err⟩
  | delete ha =>
      cases ha with
      | getLine req =>
          refine ⟨hs, ?_⟩
          cases hd : s.line req.uid req.itemID with
          | none => trivial
          | some d => exact hs.line _ _ _ hd
      | deleteLine req n =>
          refine ⟨hs.deleteLine _ _, ?_⟩
          rw [DeleteCall.onDeleted]
          split
          · trivial
          · exact hk
      | getItem req n ref =>
          refine ⟨hs, ?_⟩
          cases hi : s.items ref with
          | none => trivial
          | some item =>
              have hc := hs.stock _ _ hi
              have hn : 1 ≤ n := hk
              show 0 ≤ item.count + n
              omega
      | updateStock req n ref m hu => exact ⟨hs.updateItem hk hu, trivial⟩

theorem Call.SignsKept.fails (hk : k.SignsKept) (ha : Call.Fails s k k') :
    k'.SignsKept := by
  cases ha with
  | add ha =>
      cases ha with
      | getItem | updateStock | queryBasket | setLine => trivial
      | updateLine req uid pending err i hget => exact .settle hk i _
  | delete ha => cases ha <;> trivial

theorem Call.SignsKept.answered (hs : s.Counts (0 ≤ ·) (1 ≤ ·))
    (hk : k.SignsKept) (h : Call.Answered s k s' k') :
    s'.Counts (0 ≤ ·) (1 ≤ ·) ∧ k'.SignsKept :=
  h.ind ⟨hs, hk⟩ (fun _ _ ha => hk.acts hs ha) fun _ hf => ⟨hs, hk.fails hf⟩

end Steps

/-- Honest calls in any number, by any users and on any items, their
operations interleaved in any order and answered either way: no stock count
falls below zero and no count of a basket line below one. -/
theorem counts_keep_sign {ι : Type} [DecidableEq ι] {s₀ : Store ℤ}
    (h₀ : s₀.Counts (0 ≤ ·) (1 ≤ ·)) {calls : ι → Call ℤ}
    (hcalls : ∀ i, Honest (calls i)) {c : Config ι (Store ℤ) (Call ℤ)}
    (hrun : Run (fun _ => Call.Answered) ⟨s₀, calls⟩ c) :
    c.shared.Counts (0 ≤ ·) (1 ≤ ·) := by
  have hboth : c.shared.Counts (0 ≤ ·) (1 ≤ ·) ∧
      ∀ i, (c.locals i).SignsKept := by
    -- what a call has captured says nothing about the store
    refine hrun.separate (G := fun s => s.Counts (0 ≤ ·) (1 ≤ ·))
      (L := fun _ k => k.SignsKept) ?_ ⟨h₀, fun i => (hcalls i).signsKept⟩
    intro i s k s' k' hs hk h
    exact hk.answered hs h
  exact hboth.1

/-- Ann adds a camera to the line she has and removes the line at the same
time. The line goes between the add's query and its update, which then fails
with the camera already out of stock. -/
theorem counts_keep_sign_cameras :
    ∃ c, Run (fun _ => Call.Answered)
        ⟨(cameras (3 : ℤ)).setLine "ann" "l" (cameraLine 1), fun i : Bool =>
          bif i then .add (.getItem (.of camera "ann" 1))
          else .delete (.getLine (.of camera "ann" "l"))⟩ c ∧
      (c.locals true).error? = some (.rejected .updateLine) ∧
      c.shared.Counts (0 ≤ ·) (1 ≤ ·) := by
  obtain ⟨c, hrun, herr⟩ : ∃ c, Run (fun _ => Call.Answered)
      ⟨(cameras (3 : ℤ)).setLine "ann" "l" (cameraLine 1), fun i : Bool =>
        bif i then .add (.getItem (.of camera "ann" 1))
        else .delete (.getLine (.of camera "ann" "l"))⟩ c ∧
      (c.locals true).error? = some (.rejected .updateLine) :=
    exists_run_of_play (fun _ => Call.answer?)
      (fun _ _ _ _ _ _ => Call.answered_of_answer?)
      [(true, ⟨true, "", 0⟩), (true, ⟨true, "", 0⟩), (true, ⟨true, "", 0⟩),
        (false, ⟨true, "", 0⟩), (false, ⟨true, "", 0⟩),
        (true, ⟨true, "", 0⟩)]
      (by decide +kernel)
  have hstart : ((cameras (3 : ℤ)).setLine "ann" "l" (cameraLine 1)).Counts
      (0 ≤ ·) (1 ≤ ·) := by
    refine Store.Counts.setLine ⟨fun ref item hi => ?_, fun u l d hd => ?_⟩
      (by decide)
    · simp only [cameras] at hi
      split at hi
      · rw [← Option.some.inj hi]
        decide
      · cases hi
    · cases hd
  refine ⟨c, hrun, herr, counts_keep_sign hstart (fun i => ?_) hrun⟩
  cases i
  · exact .delete ⟨.str "l", .str "photo", .str "cam"⟩ (some "ann") rfl
  · exact .add ⟨.str "cam", .str "photo", 1⟩ (some "ann") (by decide) rfl

end PhoRent
