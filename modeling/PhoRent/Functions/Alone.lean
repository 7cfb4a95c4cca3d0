import Mathlib.Data.Fintype.EquivFin
import PhoRent.Functions.Callable

/-!
# Calls running alone

What every complete run of a call ends with is found by going through the
chain once: a point with one operation in flight can be replaced by the next
point, and only the updates of several lines need an induction. A call always
runs to an end.
-/

namespace PhoRent

variable {V : Type} [Count V] {a : Answers} {s : Store V}
  {x y z : Store V × Call V} {Q : Store V × Call V → Prop}

omit [Count V] in
theorem Store.line_of_notMem {id : String}
    (hid : id ∉ (s.basket.docs.map fun e => (ofLex e.1).2).toFinset)
    (uid : String) : s.line uid id = none := by
  cases hl : s.line uid id with
  | none => rfl
  | some d =>
      refine absurd ?_ hid
      rw [List.mem_toFinset, List.mem_map]
      exact ⟨_, Keyed.Coll.mem_docs_of_get hl, rfl⟩

omit [Count V] in
/-- The backend can always draw an id no basket has, now or earlier. -/
theorem Store.exists_fresh (s₀ s : Store V) :
    ∃ id, (∀ uid, s₀.line uid id = none) ∧ ∀ uid, s.line uid id = none := by
  obtain ⟨id, hid⟩ := Infinite.exists_notMem_finset
    ((s₀.basket.docs.map fun e => (ofLex e.1).2).toFinset ∪
      (s.basket.docs.map fun e => (ofLex e.1).2).toFinset)
  rw [Finset.notMem_union] at hid
  exact ⟨id, Store.line_of_notMem hid.1, Store.line_of_notMem hid.2⟩

/-- All complete runs from a point end as `Q` says. -/
def Ends (a : Answers) (x : Store V × Call V)
    (Q : Store V × Call V → Prop) : Prop :=
  ∀ z, RunAlone a x z → z.2.Finished → Q z

theorem Call.Finished.step {k : Call V} (h : k.Finished) (t : Turn) :
    k.step t s = (s, k) := by
  cases k with
  | add c =>
      cases c with
      | done | failed => rfl
      | getItem | updateStock | queryBasket | setLine | updateLines =>
          exact h.elim
  | delete c =>
      cases c with
      | done | failed => rfl
      | getLine | deleteLine | getItem | updateStock => exact h.elim

theorem RunAlone.of_finished (hx : x.2.Finished) (hr : RunAlone a x z) :
    z = x := by
  induction hr with
  | refl => rfl
  | tail _ hstep ih =>
      subst ih
      obtain ⟨t, -, -, rfl⟩ := hstep
      exact hx.step t

theorem ends_finished (hx : x.2.Finished) : Ends a x Q ↔ Q x := by
  constructor
  · exact fun h => h x .refl hx
  · intro h z hr _
    rw [hr.of_finished hx]
    exact h

theorem exists_aloneStep (a : Answers) (x : Store V × Call V) (pick : ℕ) :
    ∃ t : Turn, t.Fresh x.1 ∧ t.ok = x.2.answer a pick ∧ t.pick = pick ∧
      AloneStep a x (x.2.step t x.1) := by
  obtain ⟨id, -, hid⟩ := x.1.exists_fresh x.1
  let t : Turn := ⟨x.2.answer a pick, id, pick⟩
  have hfresh : t.Fresh x.1 := hid
  exact ⟨t, hfresh, rfl, rfl, t, hfresh, rfl, rfl⟩

theorem ends_step (hx : ¬ x.2.Finished)
    (hy : ∀ t : Turn, t.ok = x.2.answer a t.pick → x.2.step t x.1 = y) :
    Ends a x Q ↔ Ends a y Q := by
  constructor
  · intro h z hr hz
    obtain ⟨t, -, hok, hpick, hstep⟩ := exists_aloneStep a x 0
    rw [hy t (by rw [hok, hpick])] at hstep
    exact h z (.head hstep hr) hz
  · intro h z hr hz
    rcases hr.cases_head with rfl | ⟨y', ⟨t, -, hok, rfl⟩, hr'⟩
    · exact absurd hz hx
    · rw [hy t hok] at hr'
      exact h z hr' hz

/-! ## The points with one operation in flight -/

section Points

variable {req : AddReq V} {item : ItemDoc V} {n : V} {uid name : String}
  {d : LineDoc V}

@[simp] theorem ends_add_failed {e : JsError} :
    Ends a (s, .add (.failed req e)) Q ↔ Q (s, .add (.failed req e)) :=
  ends_finished trivial

@[simp] theorem ends_delete_failed {dreq : DeleteReq} {e : JsError} :
    Ends a (s, .delete (.failed dreq e)) Q ↔
      Q (s, .delete (.failed dreq e)) :=
  ends_finished trivial

@[simp] theorem ends_delete_done {dreq : DeleteReq} :
    Ends a (s, .delete (.done dreq n)) Q ↔ Q (s, .delete (.done dreq n)) :=
  ends_finished trivial

theorem ends_add_getItem : Ends a (s, .add (.getItem req)) Q ↔
    Ends a (s, .add (if a.getItem then AddCall.onItem req (s.items req.ref)
      else .failed req (.rejected .getItem))) Q := by
  refine ends_step id fun t ht => ?_
  simp only [Call.answer] at ht
  simp only [Call.step, AddCall.step, ht]
  split <;> rfl

theorem ends_add_updateStock :
    Ends a (s, .add (.updateStock req item n)) Q ↔
      Ends a (match if a.updateStock then s.updateItem req.ref n else none with
        | some s' => (s', .add (AddCall.onStockUpdated req item))
        | none => (s, .add (.failed req (.rejected .updateStock)))) Q := by
  refine ends_step id fun t ht => ?_
  simp only [Call.answer] at ht
  simp only [Call.step, AddCall.step, ht]
  generalize (if a.updateStock then s.updateItem req.ref n else none) = o
  cases o <;> rfl

theorem ends_add_queryBasket :
    Ends a (s, .add (.queryBasket req item uid name)) Q ↔
      Ends a (s, .add (if a.queryBasket
        then AddCall.onBasket req item uid (s.linesNamed uid name)
        else .failed req (.rejected .queryBasket))) Q := by
  refine ends_step id fun t ht => ?_
  simp only [Call.answer] at ht
  simp only [Call.step, AddCall.step, ht]
  split <;> rfl

/-- The one point whose next point depends on what the backend draws. -/
theorem ends_add_setLine : Ends a (s, .add (.setLine req uid d)) Q ↔
    if a.setLine then ∀ id, (∀ u, s.line u id = none) →
      Q (s.setLine uid id d, .add (.done req))
    else Q (s, .add (.failed req (.rejected .setLine))) := by
  have hstep : ∀ t : Turn, t.ok = a.setLine →
      Call.step t s (.add (.setLine req uid d)) =
        if a.setLine then (s.setLine uid t.autoId d, .add (.done req))
        else (s, .add (.failed req (.rejected .setLine))) := by
    intro t ht
    simp only [Call.step, AddCall.step, ht]
    split <;> rfl
  by_cases ha : a.setLine = true
  · simp only [ha, if_true] at hstep ⊢
    constructor
    · intro h id hid
      refine h _ (.single ⟨⟨true, id, 0⟩, hid, ?_, hstep _ rfl⟩) trivial
      exact ha.symm
    · intro h z hr hz
      rcases hr.cases_head with rfl | ⟨y, ⟨t, hfresh, hok, rfl⟩, hr'⟩
      · exact hz.elim
      · rw [hstep t (hok.trans ha)] at hr'
        have hz' : z = (s.setLine uid t.autoId d, .add (.done req)) :=
          RunAlone.of_finished trivial hr'
        rw [hz']
        exact h _ hfresh
  · rw [Bool.not_eq_true] at ha
    simp only [ha, Bool.false_eq_true, if_false] at hstep ⊢
    have hy : ∀ t : Turn, t.ok = Call.answer a t.pick
        (.add (.setLine req uid d)) →
        Call.step t s (.add (.setLine req uid d)) =
          (s, .add (.failed req (.rejected .setLine))) :=
      fun t ht => hstep t (ht.trans ha)
    rw [ends_step id hy]
    exact ends_finished trivial

variable {dreq : DeleteReq} {ref : ItemRef} {m : V}

theorem ends_delete_getLine : Ends a (s, .delete (.getLine dreq)) Q ↔
    Ends a (s, .delete (if a.getLine
      then DeleteCall.onLine dreq (s.line dreq.uid dreq.itemID)
      else .failed dreq (.rejected .getLine))) Q := by
  refine ends_step id fun t ht => ?_
  simp only [Call.answer] at ht
  simp only [Call.step, DeleteCall.step, ht]
  split <;> rfl

theorem ends_delete_deleteLine :
    Ends a (s, .delete (.deleteLine dreq n)) Q ↔
      Ends a (if a.deleteLine
        then (s.deleteLine dreq.uid dreq.itemID,
          .delete (DeleteCall.onDeleted dreq n))
        else (s, .delete (.failed dreq (.rejected .deleteLine)))) Q := by
  refine ends_step id fun t ht => ?_
  simp only [Call.answer] at ht
  simp only [Call.step, DeleteCall.step, ht]
  split <;> rfl

theorem ends_delete_getItem :
    Ends a (s, .delete (.getItem dreq n ref)) Q ↔
      Ends a (s, .delete (if a.getItem
        then DeleteCall.onItem dreq n ref (s.items ref)
        else .failed dreq (.rejected .getItem))) Q := by
  refine ends_step id fun t ht => ?_
  simp only [Call.answer] at ht
  simp only [Call.step, DeleteCall.step, ht]
  split <;> rfl

theorem ends_delete_updateStock :
    Ends a (s, .delete (.updateStock dreq n ref m)) Q ↔
      Ends a (match if a.updateStock then s.updateItem ref m else none with
        | some s' => (s', .delete (.done dreq n))
        | none => (s, .delete (.failed dreq (.rejected .updateStock)))) Q := by
  refine ends_step id fun t ht => ?_
  simp only [Call.answer] at ht
  simp only [Call.step, DeleteCall.step, ht]
  generalize (if a.updateStock then s.updateItem ref m else none) = o
  cases o <;> rfl

end Points

/-! ## The updates of the lines -/

section Lines

variable {req : AddReq V} {uid : String}

/-- Each line has the new count if its update has been carried out, and all
others are as they were. -/
def LinesUpdated (a : Answers) (uid : String) (pending : List (String × V))
    (s s' : Store V) : Prop :=
  (∀ e ∈ pending, a.updateLine e.1 = true → s'.line uid e.1 =
    (s.line uid e.1).map fun d => { d with count := e.2 }) ∧
  ∀ u l, (u = uid → ∀ e ∈ pending, e.1 = l → a.updateLine l = false) →
    s'.line u l = s.line u l

/-- How a call ends that updates lines: it fails if it had an error already or
an update is not carried out. -/
structure UpdatesEnd (a : Answers) (uid : String) (pending : List (String × V))
    (err : Option JsError) (s : Store V) (z : Store V × Call V) : Prop where
  items : z.1.items = s.items
  orders : z.1.orders = s.orders
  lines : LinesUpdated a uid pending s z.1
  error : z.2.error?.isSome ↔
    err.isSome ∨ ∃ e ∈ pending, a.updateLine e.1 = false

omit [Count V] in
/-- One update is answered, and the rest of the run does the others. -/
theorem UpdatesEnd.cons {pending rest : List (String × V)} {l : String} {n : V}
    {d : LineDoc V} {err : Option JsError}
    (hperm : pending.Perm ((l, n) :: rest))
    (hn : (pending.map Prod.fst).Nodup) (hd : s.line uid l = some d)
    (h : UpdatesEnd a uid rest
      (if a.updateLine l then err else some (.rejected .updateLine))
      (if a.updateLine l then s.setLine uid l { d with count := n } else s) z) :
    UpdatesEnd a uid pending err s z := by
  have hmem : ∀ e, e ∈ pending ↔ e = (l, n) ∨ e ∈ rest := by
    intro e
    rw [hperm.mem_iff, List.mem_cons]
  have hnot : ∀ e ∈ rest, e.1 ≠ l := by
    have hn' := (hperm.map Prod.fst).nodup_iff.mp hn
    rw [List.map_cons, List.nodup_cons] at hn'
    intro e he hel
    exact hn'.1 (List.mem_map.mpr ⟨e, he, hel⟩)
  obtain ⟨hitems, horders, ⟨hdo, hkeep⟩, herror⟩ := h
  cases ha : a.updateLine l with
  | true =>
      simp only [ha, if_true] at hitems horders hdo hkeep herror
      refine ⟨hitems, horders, ⟨fun e he hae => ?_, fun u l' hl' => ?_⟩, ?_⟩
      · rcases (hmem e).mp he with rfl | he'
        · rw [hkeep uid l fun _ e he hel => absurd hel (hnot e he),
            Store.line_setLine, if_pos ⟨rfl, rfl⟩, hd]
          rfl
        · rw [hdo e he' hae, Store.line_setLine,
            if_neg fun h => hnot e he' h.2]
      · rw [hkeep u l' fun hu e he => hl' hu e ((hmem e).mpr (Or.inr he)),
          Store.line_setLine, if_neg]
        intro hex
        obtain ⟨rfl, rfl⟩ := hex
        rw [hl' rfl (l', n) ((hmem _).mpr (Or.inl rfl)) rfl] at ha
        cases ha
      · rw [herror]
        refine or_congr_right ⟨?_, ?_⟩
        · intro hex
          obtain ⟨e, he, hae⟩ := hex
          exact ⟨e, (hmem e).mpr (Or.inr he), hae⟩
        · intro hex
          obtain ⟨e, he, hae⟩ := hex
          rcases (hmem e).mp he with rfl | he'
          · rw [ha] at hae; cases hae
          · exact ⟨e, he', hae⟩
  | false =>
      simp only [ha, Bool.false_eq_true, if_false]
        at hitems horders hdo hkeep herror
      refine ⟨hitems, horders, ⟨fun e he hae => ?_, fun u l' hl' => ?_⟩, ?_⟩
      · rcases (hmem e).mp he with rfl | he'
        · rw [ha] at hae; cases hae
        · exact hdo e he' hae
      · exact hkeep u l' fun hu e he => hl' hu e ((hmem e).mpr (Or.inr he))
      · rw [herror]
        simp only [Option.isSome_some, true_or, true_iff]
        exact Or.inr ⟨(l, n), (hmem _).mpr (Or.inl rfl), ha⟩

omit [Count V] in
theorem updatesEnd_nil (err : Option JsError) :
    UpdatesEnd a uid [] err s
      (s, .add (AddCall.settle req uid ([] : List (String × V)) err)) := by
  refine ⟨rfl, rfl, ⟨fun e he => (by cases he), fun _ _ _ => rfl⟩, ?_⟩
  cases err <;> simp [AddCall.settle, Call.error?]

theorem step_updateLines {t : Turn} {pending : List (String × V)}
    (req : AddReq V) (err : Option JsError) {l : String} {n : V}
    {d : LineDoc V}
    (hk : pending[t.pick]? = some (l, n)) (hd : s.line uid l = some d)
    (hok : t.ok = a.updateLine l) :
    Call.step t s (.add (.updateLines req uid pending err)) =
      (if a.updateLine l then s.setLine uid l { d with count := n } else s,
        .add (AddCall.settle req uid (pending.eraseIdx t.pick)
          (if a.updateLine l then err else some (.rejected .updateLine)))) := by
  have hu : s.updateLine uid l n =
      some (s.setLine uid l { d with count := n }) := by
    rw [Store.updateLine, hd, Option.map_some]
  simp only [Call.step, AddCall.step, hk, hok]
  cases a.updateLine l
  · rfl
  · simp only [if_true, hu]
    rfl

theorem ends_updateLines (a : Answers) (req : AddReq V)
    {pending : List (String × V)} (err : Option JsError)
    (hne : pending ≠ []) (hn : (pending.map Prod.fst).Nodup)
    (hl : ∀ e ∈ pending, s.line uid e.1 ≠ none) :
    Ends a (s, .add (.updateLines req uid pending err))
      (UpdatesEnd a uid pending err s) := by
  intro z hr hz
  generalize hx : (s, Call.add (.updateLines req uid pending err)) = x at hr
  induction hr using Relation.ReflTransGen.head_induction_on
    generalizing s pending err with
  | refl =>
      subst hx
      exact hz.elim
  | @head x y hstep hrest ih =>
      subst hx
      obtain ⟨t, -, hok, rfl⟩ := hstep
      cases hk : pending[t.pick]? with
      | none =>
          refine ih err hne hn hl ?_
          simp only [Call.step, AddCall.step, hk]
          rfl
      | some e =>
          obtain ⟨l, n⟩ := e
          obtain ⟨hlt, hget⟩ := List.getElem?_eq_some_iff.mp hk
          have hperm : pending.Perm ((l, n) :: pending.eraseIdx t.pick) :=
            hget ▸ (List.getElem_cons_eraseIdx_perm hlt).symm
          obtain ⟨d, hd⟩ := Option.ne_none_iff_exists'.mp
            (hl (l, n) (List.mem_of_getElem? hk))
          have hy := step_updateLines req err hk hd
            (by simpa [Call.answer, hk] using hok)
          refine UpdatesEnd.cons hperm hn hd ?_
          rw [hy] at hrest ih
          by_cases hnil : pending.eraseIdx t.pick = []
          · rw [hnil] at hrest ⊢
            have hfin : ∀ err : Option JsError, AddCall.Finished
                (AddCall.settle req uid ([] : List (String × V)) err) := by
              intro err
              cases err <;> trivial
            rw [RunAlone.of_finished (x := (_, .add _)) (hfin _) hrest]
            exact updatesEnd_nil _
          · have hn' := (hperm.map Prod.fst).nodup_iff.mp hn
            refine ih _ hnil (List.nodup_cons.mp hn').2 (fun e he => ?_) ?_
            · have hne' := hl e (hperm.mem_iff.mpr (List.mem_cons_of_mem _ he))
              split
              · rw [Store.line_setLine]
                split
                · simp
                · exact hne'
              · exact hne'
            · rw [AddCall.settle_ne_nil _ _ hnil]

theorem exists_updatesEnd (a : Answers) (req : AddReq V) (uid : String)
    {pending : List (String × V)} (hne : pending ≠ [])
    (hl : ∀ e ∈ pending, s.line uid e.1 ≠ none) (err : Option JsError) :
    ∃ z, RunAlone a (s, .add (.updateLines req uid pending err)) z ∧
      z.2.Finished := by
  induction pending generalizing s err with
  | nil => exact absurd rfl hne
  | cons e rest ih =>
      obtain ⟨l, n⟩ := e
      obtain ⟨d, hd⟩ := Option.ne_none_iff_exists'.mp (hl (l, n) (by simp))
      obtain ⟨t, -, hok, hpick, hstep⟩ :=
        exists_aloneStep a (s, .add (.updateLines req uid ((l, n) :: rest) err)) 0
      rw [step_updateLines req err (by rw [hpick]; rfl) hd hok, hpick] at hstep
      simp only [List.eraseIdx_zero, List.tail_cons] at hstep
      by_cases hrest : rest = []
      · subst hrest
        refine ⟨_, .single hstep, ?_⟩
        generalize (if a.updateLine l then err
          else some (.rejected .updateLine)) = err'
        cases err' <;> trivial
      · rw [AddCall.settle_ne_nil _ _ hrest] at hstep
        have hl' : ∀ e ∈ rest, (if a.updateLine l
            then s.setLine uid l { d with count := n } else s).line uid e.1 ≠
            none := by
          intro e he
          have hne' := hl e (List.mem_cons_of_mem _ he)
          split
          · rw [Store.line_setLine]
            split
            · simp
            · exact hne'
          · exact hne'
        obtain ⟨z, hr, hz⟩ := ih hrest hl' _
        exact ⟨z, .head hstep hr, hz⟩

end Lines

end PhoRent
