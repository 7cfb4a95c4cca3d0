import PhoRent.Proofs.Effect
import PhoRent.Proofs.StockRace

/-!
# Calls on different items

A call reads and writes the stock document of its item, and the lines of that
item in its caller's basket: the query goes by name, and names tell the items
apart. Call this the item's share of the store. An action of a call leaves the
shares of all other items as they are, so each call sees its own item as if it
were alone, and what it ends with can be read off the store all calls have
started from. The order they run in does not come into it. Only the ids of
new lines are drawn as the calls go.
-/

namespace PhoRent

open Interleave

/-! ## The share of an item -/

/-- What the store has of one item. -/
@[ext]
structure Share where
  item : Option (ItemDoc ℤ)
  lines : String → String → Option (LineDoc ℤ)

def Store.share (s : Store ℤ) (ref : ItemRef) : Share where
  item := s.items ref
  lines uid lineID := (s.line uid lineID).filter fun d => d.ref = ref

def Share.restock (v : Share) (n : ℤ) : Share :=
  { v with item := v.item.map fun item => { item with count := item.count + n } }

/-- The lines of the caller have `n` more each, but for those whose update is
still in flight. -/
def Share.merge (v : Share) (uid : String) (n : ℤ)
    (pending : List (String × ℤ)) : Share :=
  { v with lines := fun u l => (v.lines u l).map fun d =>
      if u = uid ∧ l ∉ pending.map Prod.fst then { d with count := d.count + n }
      else d }

def Share.put (v : Share) (uid lineID : String) (d : Option (LineDoc ℤ)) :
    Share :=
  { v with lines := fun u l => if u = uid ∧ l = lineID then d else v.lines u l }

/-- Every line has the name `s₀` gives the item it records. -/
def Store.Labelled (s₀ s : Store ℤ) : Prop :=
  ∀ uid lineID d, s.line uid lineID = some d →
    ∃ item, s₀.items d.ref = some item ∧ d.name = item.name

section Share

variable {s₀ s s' : Store ℤ} {ref r : ItemRef} {uid lineID name : String}
  {d : LineDoc ℤ}

@[simp] theorem Store.share_item : (s.share ref).item = s.items ref := rfl

theorem Store.share_lines : (s.share ref).lines uid lineID = some d ↔
    s.line uid lineID = some d ∧ d.ref = ref := by
  simp [Store.share, Option.filter_eq_some_iff]

theorem Store.Labelled.mem_linesNamed (h : s₀.Labelled s)
    (hwell : s₀.WellNamed) (hs : s₀.Named ref name) :
    (lineID, d) ∈ s.linesNamed uid name ↔
      (s.share ref).lines uid lineID = some d := by
  rw [Store.mem_linesNamed, Store.share_lines]
  refine and_congr_right fun hl => ?_
  obtain ⟨item, hi, hn⟩ := hs
  obtain ⟨item', hi', hn'⟩ := h uid lineID d hl
  constructor
  · intro hname
    refine hwell.distinct _ _ _ _ hi' hi ?_
    rw [← hn', hname, hn]
  · intro href
    rw [href, hi] at hi'
    rw [hn', ← Option.some.inj hi', hn]

/-- A step between two stores has touched one item's share at most, and given
new lines the right names. -/
structure Store.Local (s₀ : Store ℤ) (ref : ItemRef) (s s' : Store ℤ) :
    Prop where
  labelled : s₀.Labelled s → s₀.Labelled s'
  share : ∀ r, r ≠ ref → s'.share r = s.share r

theorem Store.Local.refl : s₀.Local ref s s := ⟨id, fun _ _ => rfl⟩

theorem Store.share_updateItem {n : ℤ} (h : s.updateItem ref n = some s') :
    s'.share r = if r = ref
      then ⟨(s.items ref).map fun item => { item with count := n },
        (s.share ref).lines⟩
      else s.share r := by
  have hlines : (s'.share r).lines = (s.share r).lines := by
    funext u l
    simp only [Store.share, Store.updateItem_line h]
  have hitem := Store.updateItem_items h r
  split
  · next hr =>
      subst hr
      rw [if_pos rfl] at hitem
      exact Share.ext hitem hlines
  · next hr =>
      rw [if_neg hr] at hitem
      exact Share.ext hitem hlines

theorem Store.Local.updateItem {n : ℤ} (h : s.updateItem ref n = some s') :
    s₀.Local ref s s' where
  labelled hl u l d hd := hl u l d (Store.updateItem_line h u l ▸ hd)
  share r hr := by rw [Store.share_updateItem h, if_neg hr]

/-- Where only one line has changed, and it was and is the item's, the shares
of all other items are the same. -/
theorem Store.share_eq_of_line (hitems : s'.items = s.items)
    (hframe : ∀ u l, ¬ (u = uid ∧ l = lineID) → s'.line u l = s.line u l)
    (hold : ∀ d, s.line uid lineID = some d → d.ref = ref)
    (hnew : ∀ d, s'.line uid lineID = some d → d.ref = ref) (hr : r ≠ ref) :
    s'.share r = s.share r := by
  refine Share.ext (congrFun hitems r) (funext fun u => funext fun l =>
    Option.ext fun d => ?_)
  rw [Store.share_lines, Store.share_lines]
  by_cases hul : u = uid ∧ l = lineID
  · obtain ⟨rfl, rfl⟩ := hul
    exact iff_of_false (fun h => hr (h.2.symm.trans (hnew d h.1)))
      fun h => hr (h.2.symm.trans (hold d h.1))
  · rw [hframe u l hul]

theorem Store.share_setLine (hd : d.ref = ref) :
    (s.setLine uid lineID d).share ref =
      (s.share ref).put uid lineID (some d) := by
  refine Share.ext rfl (funext fun u => funext fun l => ?_)
  simp only [Share.put, Store.share, Store.line_setLine]
  split
  · simp [hd]
  · rfl

theorem Store.Local.setLine (hd : d.ref = ref)
    (hold : ∀ d', s.line uid lineID = some d' → d'.ref = ref)
    {item : ItemDoc ℤ} (hi : s₀.items ref = some item)
    (hn : d.name = item.name) : s₀.Local ref s (s.setLine uid lineID d) where
  labelled hl u l d' hd' := by
    rcases Store.line_of_setLine hd' with ⟨-, -, rfl⟩ | hd'
    · exact ⟨item, hd ▸ hi, hn⟩
    · exact hl u l d' hd'
  share r hr := by
    refine Store.share_eq_of_line rfl (fun u l hne => ?_) hold
      (fun d' hd' => ?_) hr
    · rw [Store.line_setLine, if_neg hne]
    · rw [Store.line_setLine, if_pos ⟨rfl, rfl⟩] at hd'
      rw [← Option.some.inj hd', hd]

theorem Store.share_deleteLine : (s.deleteLine uid lineID).share ref =
    (s.share ref).put uid lineID none := by
  refine Share.ext rfl (funext fun u => funext fun l => ?_)
  simp only [Share.put, Store.share, Store.line_deleteLine]
  split <;> rfl

theorem Store.Local.deleteLine
    (hold : ∀ d', s.line uid lineID = some d' → d'.ref = ref) :
    s₀.Local ref s (s.deleteLine uid lineID) where
  labelled hl u l d' hd' := hl u l d' (Store.line_of_deleteLine hd')
  share r hr := by
    refine Store.share_eq_of_line rfl (fun u l hne => ?_) hold
      (fun d' hd' => hold d' (Store.line_of_deleteLine hd')) hr
    rw [Store.line_deleteLine, if_neg hne]

end Share

/-! ## How far a call has got

A suspended call of a job, together with what it has made of its item's share
since `s₀`. -/

/-- Updates in flight that write `n` more on lines of the share. -/
def Share.Pending (v : Share) (uid : String) (n : ℤ)
    (pending : List (String × ℤ)) : Prop :=
  (pending.map Prod.fst).Nodup ∧
    ∀ e ∈ pending, ∃ d, v.lines uid e.1 = some d ∧ e.2 = d.count + n

/-- An add of `n` units that will be accepted, of an item with this document
and name. -/
structure Store.Serves (s₀ : Store ℤ) (ref : ItemRef) (n : ℤ)
    (item : ItemDoc ℤ) (name : String) : Prop where
  found : s₀.items ref = some item
  enough : n ≤ item.count
  named : item.name = some name

/-- Where the call of a job can stand, and what the item's share is then. -/
inductive Job.Reached (s₀ : Store ℤ) (ref : ItemRef) (uid : String) :
    Job → Share → Call ℤ → Prop
  | asked {n : ℤ} : Reached s₀ ref uid (.add n) (s₀.share ref)
      (.add (.getItem (.of ref uid n)))
  | refused {n : ℤ} (h : ∀ item, s₀.items ref = some item → item.count < n)
      {e : JsError} : Reached s₀ ref uid (.add n) (s₀.share ref)
        (.add (.failed (.of ref uid n) e))
  | served {n : ℤ} {item : ItemDoc ℤ} {name : String}
      (h : s₀.Serves ref n item name) :
      Reached s₀ ref uid (.add n) (s₀.share ref)
        (.add (.updateStock (.of ref uid n) item (item.count - n)))
  | drawn {n : ℤ} {item : ItemDoc ℤ} {name : String}
      (h : s₀.Serves ref n item name) :
      Reached s₀ ref uid (.add n) ((s₀.share ref).restock (-n))
        (.add (.queryBasket (.of ref uid n) item uid name))
  | unlisted {n : ℤ} {item : ItemDoc ℤ} {name : String}
      (h : s₀.Serves ref n item name)
      (hnone : ∀ l, (s₀.share ref).lines uid l = none) :
      Reached s₀ ref uid (.add n) ((s₀.share ref).restock (-n))
        (.add (.setLine (.of ref uid n) uid
          (AddCall.newLine (.of ref uid n) item)))
  | created {n : ℤ} {item : ItemDoc ℤ} {name : String}
      (h : s₀.Serves ref n item name)
      (hnone : ∀ l, (s₀.share ref).lines uid l = none) {id : String}
      (hid : ∀ u, s₀.line u id = none) :
      Reached s₀ ref uid (.add n)
        (((s₀.share ref).restock (-n)).put uid id
          (some (AddCall.newLine (.of ref uid n) item)))
        (.add (.done (.of ref uid n)))
  | merging {n : ℤ} {item : ItemDoc ℤ} {name : String}
      (h : s₀.Serves ref n item name)
      (hsome : ∃ l, (s₀.share ref).lines uid l ≠ none)
      {pending : List (String × ℤ)}
      (hp : (s₀.share ref).Pending uid n pending) :
      Reached s₀ ref uid (.add n)
        (((s₀.share ref).restock (-n)).merge uid n pending)
        (.add (.updateLines (.of ref uid n) uid pending none))
  | merged {n : ℤ} {item : ItemDoc ℤ} {name : String}
      (h : s₀.Serves ref n item name)
      (hsome : ∃ l, (s₀.share ref).lines uid l ≠ none) :
      Reached s₀ ref uid (.add n)
        (((s₀.share ref).restock (-n)).merge uid n [])
        (.add (.done (.of ref uid n)))
  | leaving {l : String} {d : LineDoc ℤ}
      (hd : (s₀.share ref).lines uid l = some d) :
      Reached s₀ ref uid (.remove l) (s₀.share ref)
        (.delete (.getLine (.of ref uid l)))
  | read {l : String} {d : LineDoc ℤ}
      (hd : (s₀.share ref).lines uid l = some d) :
      Reached s₀ ref uid (.remove l) (s₀.share ref)
        (.delete (.deleteLine (.of ref uid l) d.count))
  | deleted {l : String} {d : LineDoc ℤ}
      (hd : (s₀.share ref).lines uid l = some d) :
      Reached s₀ ref uid (.remove l) ((s₀.share ref).put uid l none)
        (.delete (.getItem (.of ref uid l) d.count ref))
  | returning {l : String} {d : LineDoc ℤ}
      (hd : (s₀.share ref).lines uid l = some d) {item : ItemDoc ℤ}
      (hi : s₀.items ref = some item) :
      Reached s₀ ref uid (.remove l) ((s₀.share ref).put uid l none)
        (.delete (.updateStock (.of ref uid l) d.count ref
          (item.count + d.count)))
  | returned {l : String} {d : LineDoc ℤ}
      (hd : (s₀.share ref).lines uid l = some d) :
      Reached s₀ ref uid (.remove l)
        (((s₀.share ref).put uid l none).restock d.count)
        (.delete (.done (.of ref uid l) d.count))

section Steps

variable {s₀ s s' : Store ℤ} {ref : ItemRef} {uid : String} {n : ℤ}
  {v : Share} {pending : List (String × ℤ)}

theorem Share.merge_all
    (h : ∀ l d, v.lines uid l = some d → l ∈ pending.map Prod.fst) :
    v.merge uid n pending = v := by
  refine Share.ext rfl (funext fun u => funext fun l => ?_)
  cases hd : v.lines u l with
  | none => simp [Share.merge, hd]
  | some d =>
      have hnot : ¬ (u = uid ∧ l ∉ pending.map Prod.fst) := by
        intro hul
        obtain ⟨rfl, hl⟩ := hul
        exact hl (h l d hd)
      simp only [Share.merge, hd, Option.map_some, if_neg hnot]

theorem Share.merge_put {i : ℕ} {e : String × ℤ} {d : LineDoc ℤ}
    (hn : (pending.map Prod.fst).Nodup) (hi : pending[i]? = some e)
    (hd : v.lines uid e.1 = some d) :
    (v.merge uid n pending).put uid e.1
        (some { d with count := d.count + n }) =
      v.merge uid n (pending.eraseIdx i) := by
  obtain ⟨hlt, rfl⟩ := List.getElem?_eq_some_iff.mp hi
  have hperm := ((List.getElem_cons_eraseIdx_perm hlt).map Prod.fst).symm
  rw [List.map_cons] at hperm
  have hgone := (List.nodup_cons.mp (hperm.nodup_iff.mp hn)).1
  refine Share.ext rfl (funext fun u => funext fun l => ?_)
  simp only [Share.put, Share.merge]
  split
  · next hul =>
      obtain ⟨rfl, rfl⟩ := hul
      rw [hd, Option.map_some, if_pos ⟨rfl, hgone⟩]
  · next hul =>
      have hiff : (u = uid ∧ l ∉ pending.map Prod.fst) ↔
          (u = uid ∧ l ∉ (pending.eraseIdx i).map Prod.fst) := by
        refine and_congr_right fun hu => not_congr ?_
        have hl : l ≠ pending[i].1 := fun hl => hul ⟨hu, hl⟩
        rw [hperm.mem_iff, List.mem_cons]
        exact or_iff_right hl
      simp only [hiff]

theorem Share.Pending.eraseIdx (h : v.Pending uid n pending) (i : ℕ) :
    v.Pending uid n (pending.eraseIdx i) := by
  refine ⟨?_, fun e he => h.2 e (List.mem_of_mem_eraseIdx he)⟩
  exact h.1.sublist ((List.eraseIdx_sublist pending i).map _)

end Steps

/-- The operation in flight is answered, and carried out unless its document
is missing. An id drawn has not been used before, by `s₀` or since. -/
def Call.CarriedOut (s₀ s : Store ℤ) (k : Call ℤ) (s' : Store ℤ)
    (k' : Call ℤ) : Prop :=
  ∃ t : Turn, t.ok = true ∧ t.Fresh s₀ ∧ t.Fresh s ∧ k.step t s = (s', k')

section Step

variable {s₀ s s' : Store ℤ} {ref : ItemRef} {uid : String} {v : Share}
  {k k' : Call ℤ} {c : AddCall ℤ} {n : ℤ}

theorem Job.Reached.onItem (hwell : s₀.WellNamed) :
    Reached s₀ ref uid (.add n) (s₀.share ref)
      (.add (AddCall.onItem (.of ref uid n) (s₀.items ref))) := by
  cases hi : s₀.items ref with
  | none =>
      refine .refused fun item hi' => ?_
      rw [hi] at hi'
      cases hi'
  | some item =>
      rw [AddCall.onItem_of]
      obtain ⟨name, hname⟩ := hwell.named ref item hi
      split
      · next hle => exact .served ⟨hi, hle, hname⟩
      · next hlt =>
          refine .refused fun item' hi' => ?_
          obtain rfl := Option.some.inj (hi.symm.trans hi')
          exact not_le.mp hlt

theorem Job.Reached.onBasket (hwell : s₀.WellNamed) (hlab : s₀.Labelled s)
    {item : ItemDoc ℤ} {name : String} (h : s₀.Serves ref n item name)
    (hv : s.share ref = (s₀.share ref).restock (-n)) :
    Reached s₀ ref uid (.add n) ((s₀.share ref).restock (-n))
      (.add (AddCall.onBasket (.of ref uid n) item uid
        (s.linesNamed uid name))) := by
  have hmem : ∀ l d, (l, d) ∈ s.linesNamed uid name ↔
      (s₀.share ref).lines uid l = some d := by
    intro l d
    rw [hlab.mem_linesNamed hwell ⟨item, h.found, h.named⟩, hv]
    rfl
  cases hq : s.linesNamed uid name with
  | nil =>
      simp only [AddCall.onBasket, Count.storable_int, if_true]
      refine .unlisted h fun l => ?_
      refine Option.eq_none_iff_forall_ne_some.mpr fun d hd => ?_
      rw [← hmem, hq] at hd
      cases hd
  | cons e rest =>
      have hlines : ∃ l, (s₀.share ref).lines uid l ≠ none := by
        refine ⟨e.1, ?_⟩
        rw [(hmem e.1 e.2).mp (by simp [hq])]
        simp
      rw [AddCall.onBasket, ← hq]
      · have hnodup := s.linesNamed_nodup uid name
        have hp : (s₀.share ref).Pending uid n ((s.linesNamed uid name).map
            fun e => (e.1, Count.add e.2.count n)) := by
          refine ⟨by simpa [Function.comp_def] using hnodup, fun e he => ?_⟩
          obtain ⟨e', he', rfl⟩ := List.mem_map.mp he
          exact ⟨e'.2, (hmem _ _).mp he', rfl⟩
        have hreach := Reached.merging h hlines hp
        rwa [Share.merge_all fun l d hd => ?_] at hreach
        have hl : (l, d) ∈ s.linesNamed uid name := (hmem l d).mpr hd
        simpa [Function.comp_def] using List.mem_map_of_mem (f := Prod.fst) hl
      · simp

theorem Job.Reached.settle {item : ItemDoc ℤ} {name : String}
    (h : s₀.Serves ref n item name)
    (hsome : ∃ l, (s₀.share ref).lines uid l ≠ none)
    {pending : List (String × ℤ)}
    (hp : (s₀.share ref).Pending uid n pending) :
    Reached s₀ ref uid (.add n)
      (((s₀.share ref).restock (-n)).merge uid n pending)
      (.add (AddCall.settle (.of ref uid n) uid pending none)) := by
  rw [AddCall.settle]
  split
  · next hnil =>
      subst hnil
      exact .merged h hsome
  · exact .merging h hsome hp

theorem Store.share_restock {item : ItemDoc ℤ} (hi : s.items ref = some item)
    (hu : s.updateItem ref (item.count + n) = some s') :
    s'.share ref = (s.share ref).restock n := by
  rw [Store.share_updateItem hu, if_pos rfl]
  refine Share.ext ?_ rfl
  simp only [Share.restock, Store.share_item, hi, Option.map_some]

/-- One of the pending lines is written: it is there, with the item's reference,
and the share loses one of the writes it is still short of. -/
theorem Share.Pending.updateLine {pending : List (String × ℤ)}
    (hp : (s₀.share ref).Pending uid n pending) (hlab : s₀.Labelled s)
    (hv : s.share ref =
      ((s₀.share ref).restock (-n)).merge uid n pending)
    {i : ℕ} {e : String × ℤ} (hk : pending[i]? = some e) :
    ∃ s₁, s.updateLine uid e.1 e.2 = some s₁ ∧
      s₁.share ref =
        ((s₀.share ref).restock (-n)).merge uid n (pending.eraseIdx i) ∧
      s₀.Local ref s s₁ := by
  obtain ⟨d, hd, hm⟩ := hp.2 e (List.mem_of_getElem? hk)
  have hin : e.1 ∈ pending.map Prod.fst :=
    List.mem_map_of_mem (List.mem_of_getElem? hk)
  have hline : s.line uid e.1 = some d ∧ d.ref = ref := by
    rw [← Store.share_lines, hv]
    simp only [Share.merge, Share.restock, hd, Option.map_some, hin,
      not_true, and_false, if_false]
  refine ⟨s.setLine uid e.1 { d with count := e.2 }, ?_, ?_, ?_⟩
  · rw [Store.updateLine, hline.1, Option.map_some]
  · rw [Store.share_setLine (d := { d with count := e.2 }) hline.2, hv, hm]
    exact Share.merge_put hp.1 hk hd
  · obtain ⟨item', hi', hname⟩ := hlab uid e.1 d hline.1
    refine .setLine hline.2 (fun d' hd' => ?_) (hline.2 ▸ hi') hname
    obtain rfl := Option.some.inj (hline.1.symm.trans hd')
    exact hline.2

/-- What a call does with the store is what is due at its position, and the
shares of the other items stay as they are. -/
theorem Job.Reached.step {j : Job} (hwell : s₀.WellNamed)
    (hlab : s₀.Labelled s) (h : j.Reached s₀ ref uid v k)
    (hv : s.share ref = v) (hc : Call.CarriedOut s₀ s k s' k') :
    j.Reached s₀ ref uid (s'.share ref) k' ∧ s₀.Local ref s s' := by
  obtain ⟨t, ht, hfresh₀, hfresh, hstep⟩ := hc
  have hitem : s.items ref = v.item := congrArg Share.item hv
  cases h with
  | asked =>
      simp only [Call.step, AddCall.step, Prod.map_apply, id_eq, ht, if_true,
        AddReq.of_ref] at hstep
      obtain ⟨rfl, rfl⟩ := Prod.mk.inj hstep
      rw [hv]
      simp only [hitem]
      exact ⟨.onItem hwell, .refl⟩
  | refused h =>
      obtain ⟨rfl, rfl⟩ := Prod.mk.inj hstep
      exact ⟨hv ▸ .refused h, .refl⟩
  | @served n item name h =>
      have hi : s.items ref = some item := hitem.trans h.found
      obtain ⟨s₁, hu⟩ := Store.exists_updateItem hi (item.count - n)
      simp only [Call.step, AddCall.step, Prod.map_apply, id_eq, ht, if_true,
        AddReq.of_ref, hu]
        at hstep
      obtain ⟨rfl, rfl⟩ := Prod.mk.inj hstep
      rw [sub_eq_add_neg] at hu
      rw [Store.share_restock hi hu, hv,
        AddCall.onStockUpdated_of h.named]
      exact ⟨.drawn h, .updateItem hu⟩
  | drawn h =>
      simp only [Call.step, AddCall.step, Prod.map_apply, id_eq, ht, if_true]
        at hstep
      obtain ⟨rfl, rfl⟩ := Prod.mk.inj hstep
      rw [hv]
      exact ⟨.onBasket hwell hlab h hv, .refl⟩
  | @unlisted n item name h hnone =>
      simp only [Call.step, AddCall.step, Prod.map_apply, id_eq, ht, if_true]
        at hstep
      obtain ⟨rfl, rfl⟩ := Prod.mk.inj hstep
      have href : (AddCall.newLine (.of ref uid n) item).ref = ref := rfl
      rw [Store.share_setLine href, hv]
      refine ⟨.created h hnone hfresh₀, .setLine href (fun d hd => ?_)
        h.found rfl⟩
      rw [hfresh uid] at hd
      cases hd
  | created h hnone hid =>
      obtain ⟨rfl, rfl⟩ := Prod.mk.inj hstep
      exact ⟨hv ▸ .created h hnone hid, .refl⟩
  | @merging n item name h hsome pending hp =>
      simp only [Call.step, AddCall.step, ht, if_true] at hstep
      cases hk : pending[t.pick]? with
      | none =>
          simp only [hk, Prod.map_apply, id_eq] at hstep
          obtain ⟨rfl, rfl⟩ := Prod.mk.inj hstep
          exact ⟨hv ▸ .merging h hsome hp, .refl⟩
      | some e =>
          obtain ⟨s₁, hu, hshare, hlocal⟩ := hp.updateLine hlab hv hk
          simp only [hk, hu, Prod.map_apply, id_eq] at hstep
          obtain ⟨rfl, rfl⟩ := Prod.mk.inj hstep
          rw [hshare]
          exact ⟨.settle h hsome (hp.eraseIdx _), hlocal⟩
  | merged h hsome =>
      obtain ⟨rfl, rfl⟩ := Prod.mk.inj hstep
      exact ⟨hv ▸ .merged h hsome, .refl⟩
  | @leaving l d hd =>
      have hline : s.line uid l = some d := by
        rw [← hv] at hd
        exact (Store.share_lines.mp hd).1
      simp only [Call.step, DeleteCall.step, Prod.map_apply, id_eq, ht,
        if_true, DeleteReq.of, hline]
        at hstep
      obtain ⟨rfl, rfl⟩ := Prod.mk.inj hstep
      rw [hv]
      exact ⟨.read (hv ▸ hd), .refl⟩
  | @read l d hd =>
      have hline : s.line uid l = some d ∧ d.ref = ref := by
        rw [← Store.share_lines, hv]
        exact hd
      simp only [Call.step, DeleteCall.step, Prod.map_apply, id_eq, ht,
        if_true] at hstep
      obtain ⟨rfl, rfl⟩ := Prod.mk.inj hstep
      refine ⟨?_, .deleteLine fun d' hd' => ?_⟩
      · have hshare : (s.deleteLine uid l).share ref =
            (s₀.share ref).put uid l none := by
          rw [Store.share_deleteLine, hv]
        exact hshare ▸ .deleted hd
      · obtain rfl := Option.some.inj (hline.1.symm.trans hd')
        exact hline.2
  | @deleted l d hd =>
      obtain ⟨hl, href⟩ := Store.share_lines.mp hd
      obtain ⟨item, hi, -⟩ := hwell.line uid l d hl
      rw [href] at hi
      have his : s.items ref = some item := hitem.trans hi
      simp only [Call.step, DeleteCall.step, Prod.map_apply, id_eq, ht,
        if_true, his] at hstep
      obtain ⟨rfl, rfl⟩ := Prod.mk.inj hstep
      rw [hv]
      exact ⟨.returning hd hi, .refl⟩
  | @returning l d hd item hi =>
      have his : s.items ref = some item := hitem.trans hi
      obtain ⟨s₁, hu⟩ := Store.exists_updateItem his (item.count + d.count)
      simp only [Call.step, DeleteCall.step, Prod.map_apply, id_eq, ht,
        if_true, hu] at hstep
      obtain ⟨rfl, rfl⟩ := Prod.mk.inj hstep
      rw [Store.share_restock his hu, hv]
      exact ⟨.returned hd, .updateItem hu⟩
  | returned hd =>
      obtain ⟨rfl, rfl⟩ := Prod.mk.inj hstep
      exact ⟨hv ▸ .returned hd, .refl⟩

end Step

/-! ## What a call ends with -/

/-- The share a finished job leaves, told from `s₀`. -/
inductive Job.Ended (s₀ : Store ℤ) (ref : ItemRef) (uid : String) :
    Job → Share → Prop
  | refused {n : ℤ} (h : ∀ item, s₀.items ref = some item → item.count < n) :
      Ended s₀ ref uid (.add n) (s₀.share ref)
  | created {n : ℤ} {item : ItemDoc ℤ} {name : String}
      (h : s₀.Serves ref n item name)
      (hnone : ∀ l, (s₀.share ref).lines uid l = none) {id : String}
      (hid : ∀ u, s₀.line u id = none) :
      Ended s₀ ref uid (.add n) (((s₀.share ref).restock (-n)).put uid id
        (some (AddCall.newLine (.of ref uid n) item)))
  | merged {n : ℤ} {item : ItemDoc ℤ} {name : String}
      (h : s₀.Serves ref n item name)
      (hsome : ∃ l, (s₀.share ref).lines uid l ≠ none) :
      Ended s₀ ref uid (.add n)
        (((s₀.share ref).restock (-n)).merge uid n [])
  | returned {l : String} {d : LineDoc ℤ}
      (hd : (s₀.share ref).lines uid l = some d) :
      Ended s₀ ref uid (.remove l)
        (((s₀.share ref).put uid l none).restock d.count)

theorem Job.Reached.ended {s₀ : Store ℤ} {ref : ItemRef} {uid : String}
    {j : Job} {v : Share} {k : Call ℤ} (h : j.Reached s₀ ref uid v k)
    (hf : k.Finished) : j.Ended s₀ ref uid v := by
  cases h with
  | asked | served | drawn | unlisted | merging | leaving | read | deleted
  | returning => exact hf.elim
  | refused h => exact .refused h
  | created h hnone hid => exact .created h hnone hid
  | merged h hsome => exact .merged h hsome
  | returned hd => exact .returned hd

structure Share.Alike (s₀ : Store ℤ) (v v' : Share) : Prop where
  item : v.item = v'.item
  old : ∀ uid lineID, s₀.line uid lineID ≠ none →
    v.lines uid lineID = v'.lines uid lineID
  new : ∀ uid lineID d, s₀.line uid lineID = none →
    v.lines uid lineID = some d →
    ∃ lineID', s₀.line uid lineID' = none ∧ v'.lines uid lineID' = some d

theorem Share.Alike.refl {s₀ : Store ℤ} {v : Share} : v.Alike s₀ v :=
  ⟨rfl, fun _ _ _ => rfl, fun _ l _ hl hd => ⟨l, hl, hd⟩⟩

section Ended

variable {s₀ : Store ℤ} {ref : ItemRef} {uid : String} {v v' : Share}
  {n : ℤ} {item : ItemDoc ℤ} {name : String}

theorem Store.Serves.not_refused (h : s₀.Serves ref n item name)
    (hlt : ∀ item, s₀.items ref = some item → item.count < n) : False :=
  absurd (hlt item h.found) (not_lt.mpr h.enough)

def Share.Old (s₀ : Store ℤ) (v : Share) : Prop :=
  ∀ uid lineID, v.lines uid lineID ≠ none → s₀.line uid lineID ≠ none

theorem Store.share_old : (s₀.share ref).Old s₀ := by
  intro u l h
  obtain ⟨d, hd⟩ := Option.ne_none_iff_exists'.mp h
  rw [(Store.share_lines.mp hd).1]
  simp

theorem Share.Old.restock (h : v.Old s₀) (n : ℤ) : (v.restock n).Old s₀ := h

theorem Share.Old.merge (h : v.Old s₀) (pending : List (String × ℤ)) :
    (v.merge uid n pending).Old s₀ := by
  intro u l hm
  refine h u l fun hn => hm ?_
  simp only [Share.merge, hn, Option.map_none]

theorem Share.Old.put_none (h : v.Old s₀) (l : String) :
    (v.put uid l none).Old s₀ := by
  intro u l' hp
  refine h u l' fun hn => hp ?_
  simp only [Share.put, hn, ite_self]

theorem Share.put_lines_ne {u l id : String} {d : Option (LineDoc ℤ)}
    (hid : ∀ u, s₀.line u id = none) (hl : s₀.line u l ≠ none) :
    (v.put uid id d).lines u l = v.lines u l := by
  have hne : ¬ (u = uid ∧ l = id) := by
    intro hul
    rw [hul.2] at hl
    exact hl (hid u)
  simp only [Share.put, if_neg hne]

theorem Share.Old.put_new (h : v.Old s₀) {u l id : String}
    {d : Option (LineDoc ℤ)} (hl : s₀.line u l = none)
    (hd : (v.put uid id d).lines u l ≠ none) : u = uid ∧ l = id := by
  by_contra hul
  simp only [Share.put, if_neg hul] at hd
  exact h u l hd hl

theorem Share.Alike.created {d : LineDoc ℤ} {id id' : String}
    (hid : ∀ u, s₀.line u id = none) (hid' : ∀ u, s₀.line u id' = none)
    (hold : v.Old s₀) :
    (v.put uid id (some d)).Alike s₀ (v.put uid id' (some d)) := by
  refine ⟨rfl, fun u l hl => ?_, fun u l d' hl hd' => ⟨id', hid' u, ?_⟩⟩
  · rw [Share.put_lines_ne hid hl, Share.put_lines_ne hid' hl]
  · have hne : (v.put uid id (some d)).lines u l ≠ none := by
      rw [hd']
      exact Option.some_ne_none _
    obtain ⟨rfl, rfl⟩ := hold.put_new hl hne
    simpa only [Share.put, true_and, if_true] using hd'

/-- The end of a job is fixed by `s₀`, but for the id of a new line. -/
theorem Job.Ended.alike {j : Job} (h : j.Ended s₀ ref uid v)
    (h' : j.Ended s₀ ref uid v') : v.Alike s₀ v' := by
  cases h with
  | refused hlt =>
      cases h' with
      | refused => exact .refl
      | created h' | merged h' => exact (h'.not_refused hlt).elim
  | created h hnone hid =>
      cases h' with
      | refused hlt => exact (h.not_refused hlt).elim
      | created h' _ hid' =>
          obtain rfl := Option.some.inj (h.found.symm.trans h'.found)
          exact .created hid hid' (Store.share_old.restock _)
      | merged _ hsome =>
          obtain ⟨l, hl⟩ := hsome
          exact absurd (hnone l) hl
  | merged h hsome =>
      cases h' with
      | refused hlt => exact (h.not_refused hlt).elim
      | created _ hnone =>
          obtain ⟨l, hl⟩ := hsome
          exact absurd (hnone l) hl
      | merged => exact .refl
  | returned hd =>
      cases h' with
      | returned hd' =>
          obtain rfl := Option.some.inj (hd.symm.trans hd')
          exact .refl

theorem Job.Ended.one_new {j : Job} (h : j.Ended s₀ ref uid v)
    {u l l' : String} (hl : s₀.line u l = none) (hl' : s₀.line u l' = none)
    (hd : v.lines u l ≠ none) (hd' : v.lines u l' ≠ none) : l = l' := by
  have hshare : (s₀.share ref).Old s₀ := Store.share_old
  cases h with
  | refused => exact absurd hl (hshare u l hd)
  | created =>
      have hold := hshare.restock
      rw [((hold _).put_new hl hd).2, ((hold _).put_new hl' hd').2]
  | merged => exact absurd hl ((hshare.restock _).merge _ u l hd)
  | returned => exact absurd hl ((hshare.put_none _).restock _ u l hd)

end Ended

/-! ## A call runs to an end -/

def Call.Settles (s₀ : Store ℤ) (x : Store ℤ × Call ℤ) : Prop :=
  ∃ z, Relation.ReflTransGen
    (fun x y => Call.CarriedOut s₀ x.1 x.2 y.1 y.2) x z ∧ z.2.Finished

section Settles

variable {s₀ s : Store ℤ} {req : AddReq ℤ} {uid : String}

theorem Call.Settles.of_finished {k : Call ℤ} (h : k.Finished) :
    Call.Settles s₀ (s, k) := ⟨_, .refl, h⟩

theorem Call.Settles.of_step {k : Call ℤ}
    (h : ∀ t : Turn, t.ok = true → t.pick = 0 →
      Call.Settles s₀ (k.step t s)) : Call.Settles s₀ (s, k) := by
  obtain ⟨id, hid₀, hid⟩ := s₀.exists_fresh s
  let t : Turn := ⟨true, id, 0⟩
  obtain ⟨z, hrun, hz⟩ := h t rfl rfl
  have hstep : Call.CarriedOut s₀ s k (k.step t s).1 (k.step t s).2 :=
    ⟨t, rfl, hid₀, hid, rfl⟩
  exact ⟨z, .head hstep hrun, hz⟩

theorem Call.settles_updateLines {pending : List (String × ℤ)}
    (hne : pending ≠ []) (err : Option JsError) :
    Call.Settles s₀ (s, .add (.updateLines req uid pending err)) := by
  induction pending generalizing s err with
  | nil => exact absurd rfl hne
  | cons e rest ih =>
      -- whether the update goes through or its line is missing, one less is
      -- in flight
      have hsettle : ∀ s err,
          Call.Settles s₀ (s, .add (AddCall.settle req uid rest err)) := by
        intro s err
        by_cases hnil : rest = []
        · subst hnil
          cases err <;> exact .of_finished trivial
        · rw [AddCall.settle_ne_nil req uid hnil]
          exact ih hnil err
      refine .of_step fun t ht hpick => ?_
      simp only [Call.step, AddCall.step, ht, hpick, if_true,
        List.getElem?_cons_zero, List.eraseIdx_cons_zero]
      split
      · exact hsettle _ _
      · exact hsettle _ _

theorem Call.settles_queryBasket (item : ItemDoc ℤ) (name : String) :
    Call.Settles s₀ (s, .add (.queryBasket req item uid name)) := by
  refine .of_step fun t ht _ => ?_
  simp only [Call.step, AddCall.step, ht, if_true, Prod.map_apply, id_eq]
  cases s.linesNamed uid name with
  | nil =>
      refine .of_step fun t ht _ => ?_
      simp only [Call.step, AddCall.step, ht, if_true]
      exact .of_finished trivial
  | cons e rest =>
      rw [AddCall.onBasket]
      · exact settles_updateLines (by simp) none
      · simp

theorem Call.settles_add (req : AddReq ℤ) :
    Call.Settles s₀ (s, .add (.getItem req)) := by
  refine .of_step fun t ht _ => ?_
  simp only [Call.step, AddCall.step, ht, if_true, Prod.map_apply, id_eq]
  cases s.items req.ref with
  | none => exact .of_finished trivial
  | some item =>
      rw [AddCall.onItem]
      split
      swap
      · exact .of_finished trivial
      refine .of_step fun t ht _ => ?_
      simp only [Call.step, AddCall.step, ht, if_true]
      split
      swap
      · exact .of_finished trivial
      rw [AddCall.onStockUpdated]
      split
      · exact .of_finished trivial
      · split
        · exact .of_finished trivial
        · exact settles_queryBasket _ _

theorem Call.settles_delete (req : DeleteReq) :
    Call.Settles s₀ (s, .delete (.getLine req)) := by
  refine .of_step fun t ht _ => ?_
  simp only [Call.step, DeleteCall.step, ht, if_true, Prod.map_apply, id_eq]
  cases s.line req.uid req.itemID with
  | none => exact .of_finished trivial
  | some d =>
      rw [DeleteCall.onLine]
      refine .of_step fun t ht _ => ?_
      simp only [Call.step, DeleteCall.step, ht, if_true, Prod.map_apply, id_eq]
      rw [DeleteCall.onDeleted]
      split
      · exact .of_finished trivial
      refine .of_step fun t ht _ => ?_
      simp only [Call.step, DeleteCall.step, ht, if_true, Prod.map_apply, id_eq]
      rw [DeleteCall.onItem.eq_def]
      split
      · exact .of_finished trivial
      refine .of_step fun t ht _ => ?_
      simp only [Call.step, DeleteCall.step, ht, if_true]
      split <;> exact .of_finished trivial

end Settles

/-! ## Any order of the operations -/

def Store.newLines (s₀ s : Store ℤ) (uid : String) : List (LineDoc ℤ) :=
  ((s.lines uid).filter fun e => (s₀.line uid e.1).isNone).map Prod.snd

/-- Equal but for the ids of the lines `s₀` does not have. -/
structure Store.SameUpToNewIds (s₀ s s' : Store ℤ) : Prop where
  items : s.items = s'.items
  old : ∀ uid lineID, s₀.line uid lineID ≠ none →
    s.line uid lineID = s'.line uid lineID
  new : ∀ uid, (s₀.newLines s uid).Perm (s₀.newLines s' uid)

section Shares

variable {s₀ s s' : Store ℤ} {uid : String}

theorem Store.mem_newLines {d : LineDoc ℤ} : d ∈ s₀.newLines s uid ↔
    ∃ lineID, s₀.line uid lineID = none ∧
      (s.share d.ref).lines uid lineID = some d := by
  simp only [Store.newLines, List.mem_map, List.mem_filter,
    Option.isNone_iff_eq_none, Store.share_lines, and_true]
  constructor
  · intro h
    obtain ⟨e, ⟨he, hl⟩, rfl⟩ := h
    exact ⟨e.1, hl, Store.mem_lines.mp he⟩
  · intro h
    obtain ⟨l, hl, hd⟩ := h
    exact ⟨(l, d), ⟨Store.mem_lines.mpr hd, hl⟩, rfl⟩

theorem Store.newLines_nodup
    (h : ∀ ref u l l', s₀.line u l = none → s₀.line u l' = none →
      (s.share ref).lines u l ≠ none → (s.share ref).lines u l' ≠ none →
      l = l') : (s₀.newLines s uid).Nodup := by
  refine List.Nodup.map_on ?_ ((List.Nodup.of_map _ (s.lines_nodup uid)).filter _)
  intro e he e' he' hd
  simp only [List.mem_filter, Option.isNone_iff_eq_none] at he he'
  have hline : ∀ e : String × LineDoc ℤ, e ∈ s.lines uid →
      (s.share e.2.ref).lines uid e.1 ≠ none := by
    intro e he
    rw [Store.share_lines.mpr ⟨Store.mem_lines.mp he, rfl⟩]
    exact Option.some_ne_none _
  refine Prod.ext (h e.2.ref uid _ _ he.2 he'.2 (hline e he.1) ?_) hd
  rw [hd]
  exact hline e' he'.1

theorem Store.SameUpToNewIds.of_shares
    (halike : ∀ ref, (s.share ref).Alike s₀ (s'.share ref))
    (halike' : ∀ ref, (s'.share ref).Alike s₀ (s.share ref))
    (hone : ∀ ref u l l', s₀.line u l = none → s₀.line u l' = none →
      (s.share ref).lines u l ≠ none → (s.share ref).lines u l' ≠ none →
      l = l')
    (hone' : ∀ ref u l l', s₀.line u l = none → s₀.line u l' = none →
      (s'.share ref).lines u l ≠ none → (s'.share ref).lines u l' ≠ none →
      l = l') : s₀.SameUpToNewIds s s' where
  items := funext fun ref => (halike ref).item
  old u l hl := by
    refine Option.ext fun d => ?_
    have hd := (halike d.ref).old u l hl
    constructor
    · intro h
      have hs := Store.share_lines.mpr ⟨h, rfl⟩
      exact (Store.share_lines.mp (hd ▸ hs)).1
    · intro h
      have hs := Store.share_lines.mpr ⟨h, rfl⟩
      exact (Store.share_lines.mp (hd ▸ hs)).1
  new u := by
    rw [List.perm_ext_iff_of_nodup (Store.newLines_nodup hone)
      (Store.newLines_nodup hone')]
    intro d
    rw [Store.mem_newLines, Store.mem_newLines]
    constructor
    · intro h
      obtain ⟨l, hl, hd⟩ := h
      exact (halike d.ref).new u l d hl hd
    · intro h
      obtain ⟨l, hl, hd⟩ := h
      exact (halike' d.ref).new u l d hl hd

end Shares

section Run

variable {ι : Type} {s₀ : Store ℤ} {ref : ι → ItemRef} {user : ι → String}
  {jobs : ι → Job}

/-- Every call is at a position of its own job, the item's share as it is
then; the shares of all other items are those of `s₀`. -/
structure Apart (s₀ : Store ℤ) (ref : ι → ItemRef) (user : ι → String)
    (jobs : ι → Job) (c : Config ι (Store ℤ) (Call ℤ)) : Prop where
  labelled : s₀.Labelled c.shared
  others : ∀ r, (∀ i, r ≠ ref i) → c.shared.share r = s₀.share r
  reached : ∀ i, (jobs i).Reached s₀ (ref i) (user i)
    (c.shared.share (ref i)) (c.locals i)

def startAll (ref : ι → ItemRef) (user : ι → String) (jobs : ι → Job)
    (i : ι) : Call ℤ :=
  (jobs i).start (ref i) (user i)

theorem apart_start (hwell : s₀.WellNamed)
    (hjobs : ∀ i, (jobs i).Valid s₀ (ref i) (user i)) :
    Apart s₀ ref user jobs ⟨s₀, startAll ref user jobs⟩ := by
  refine ⟨hwell.line, fun _ _ => rfl, fun i => ?_⟩
  have hi := hjobs i
  simp only [startAll]
  cases hj : jobs i with
  | add n => exact .asked
  | remove l =>
      rw [hj] at hi
      obtain ⟨d, hd, href⟩ := hi
      exact .leaving (Store.share_lines.mpr ⟨hd, href⟩)

theorem Apart.run [DecidableEq ι] (hwell : s₀.WellNamed)
    (href : Function.Injective ref) {c c' : Config ι (Store ℤ) (Call ℤ)}
    (h : Apart s₀ ref user jobs c)
    (hrun : Run (fun _ => Call.CarriedOut s₀) c c') :
    Apart s₀ ref user jobs c' := by
  have hboth := hrun.pointwise
    (G := fun s => s₀.Labelled s ∧
      ∀ r, (∀ i, r ≠ ref i) → s.share r = s₀.share r)
    (L := fun i s k => (jobs i).Reached s₀ (ref i) (user i)
      (s.share (ref i)) k) ?_ ?_ ⟨⟨h.labelled, h.others⟩, h.reached⟩
  · exact ⟨hboth.1.1, hboth.1.2, hboth.2⟩
  · intro i s k s' k' ⟨hlab, hothers⟩ hk hc
    obtain ⟨hk', hlocal⟩ := hk.step hwell hlab rfl hc
    refine ⟨⟨hlocal.labelled hlab, fun r hr => ?_⟩, hk'⟩
    rw [hlocal.share r (hr i), hothers r hr]
  · intro i j s k s' k' kj hji ⟨hlab, _⟩ hk hkj hc
    obtain ⟨-, hlocal⟩ := hk.step hwell hlab rfl hc
    rw [hlocal.share (ref j) fun he => hji (href he)]
    exact hkj

section Ends

variable {c c' : Config ι (Store ℤ) (Call ℤ)}

theorem Apart.alike (h : Apart s₀ ref user jobs c)
    (h' : Apart s₀ ref user jobs c') (hf : ∀ i, (c.locals i).Finished)
    (hf' : ∀ i, (c'.locals i).Finished) (r : ItemRef) :
    (c.shared.share r).Alike s₀ (c'.shared.share r) := by
  by_cases hr : ∃ i, r = ref i
  · obtain ⟨i, rfl⟩ := hr
    exact ((h.reached i).ended (hf i)).alike ((h'.reached i).ended (hf' i))
  · rw [not_exists] at hr
    rw [h.others r hr, h'.others r hr]
    exact .refl

theorem Apart.one_new (h : Apart s₀ ref user jobs c)
    (hf : ∀ i, (c.locals i).Finished) (r : ItemRef) (u l l' : String)
    (hl : s₀.line u l = none) (hl' : s₀.line u l' = none)
    (hd : (c.shared.share r).lines u l ≠ none)
    (hd' : (c.shared.share r).lines u l' ≠ none) : l = l' := by
  by_cases hr : ∃ i, r = ref i
  · obtain ⟨i, rfl⟩ := hr
    exact ((h.reached i).ended (hf i)).one_new hl hl' hd hd'
  · rw [not_exists] at hr
    rw [h.others r hr] at hd
    exact absurd hl (Store.share_old u l hd)

theorem Apart.same (h : Apart s₀ ref user jobs c)
    (h' : Apart s₀ ref user jobs c') (hf : ∀ i, (c.locals i).Finished)
    (hf' : ∀ i, (c'.locals i).Finished) :
    s₀.SameUpToNewIds c.shared c'.shared :=
  .of_shares (h.alike h' hf hf') (h'.alike h hf' hf) (h.one_new hf)
    (h'.one_new hf')

end Ends

end Run

/-- Calls no two of which are about the same item, with all their operations
interleaved, leave what they leave one after another in any order. -/
theorem independent_calls {ι : Type} [DecidableEq ι] {s₀ : Store ℤ}
    (hwell : s₀.WellNamed) {ref : ι → ItemRef}
    (href : Function.Injective ref) {user : ι → String} {jobs : ι → Job}
    (hjobs : ∀ i, (jobs i).Valid s₀ (ref i) (user i))
    {c : Config ι (Store ℤ) (Call ℤ)}
    (hrun : Run (fun _ => Call.CarriedOut s₀)
      ⟨s₀, startAll ref user jobs⟩ c)
    (hfin : ∀ i, (c.locals i).Finished) {order : List ι}
    (hn : order.Nodup) (hall : ∀ i, i ∈ order) :
    (∃ s, Interleave.InTurn (fun _ => Call.CarriedOut s₀) Call.Finished
      (startAll ref user jobs) order s₀ s) ∧
    ∀ s, Interleave.InTurn (fun _ => Call.CarriedOut s₀) Call.Finished
      (startAll ref user jobs) order s₀ s → s₀.SameUpToNewIds c.shared s := by
  have hstart := apart_start hwell hjobs
  refine ⟨exists_inTurn (fun i s => ?_) order s₀, fun s hs => ?_⟩
  · simp only [startAll]
    cases jobs i with
    | add n => exact Call.settles_add _
    | remove l => exact Call.settles_delete _
  · obtain ⟨c', hrun', rfl, hfin', -⟩ :=
      hs.run (c := ⟨s₀, startAll ref user jobs⟩) hn rfl fun _ _ => rfl
    exact (hstart.run hwell href hrun).same (hstart.run hwell href hrun') hfin
      fun i => hfin' i (hall i)

def Call.carry? (s₀ : Store ℤ) (id : String) (s : Store ℤ) (k : Call ℤ) :
    Option (Store ℤ × Call ℤ) :=
  let t : Turn := ⟨true, id, 0⟩
  if t.fresh? s₀ then k.answer? t s else none

theorem Call.carriedOut_of_carry? {s₀ s s' : Store ℤ} {id : String}
    {k k' : Call ℤ} (h : k.carry? s₀ id s = some (s', k')) :
    Call.CarriedOut s₀ s k s' k' := by
  rw [Call.carry?] at h
  split at h
  · next h₀ =>
      rw [Call.answer?] at h
      split at h
      · next hf =>
          exact ⟨_, rfl, Turn.fresh_of_fresh? h₀, Turn.fresh_of_fresh? hf,
            Option.some.inj h⟩
      · cases h
  · cases h

def tripod : ItemRef := ⟨"photo", "tri"⟩

def studio : Store ℤ :=
  ({ cameras (1 : ℤ) with
    items := Function.update (cameras 1).items tripod
      (some ⟨some "Tripod", 1, []⟩) } : Store ℤ).setLine "ann" "l" (cameraLine 1)

theorem studio_wellNamed : studio.WellNamed := by
  have hitem : ∀ ref item, studio.items ref = some item →
      (ref = tripod ∧ item.name = some "Tripod") ∨
        ref = camera ∧ item.name = some "Camera" := by
    intro ref item hi
    simp only [studio, Store.setLine_items, Function.update_apply] at hi
    split at hi
    · next href => exact Or.inl ⟨href, by rw [← Option.some.inj hi]⟩
    · simp only [cameras] at hi
      split at hi
      · next href => exact Or.inr ⟨href, by rw [← Option.some.inj hi]⟩
      · cases hi
  refine ⟨fun ref item hi => ?_, fun ref ref' item item' hi hi' hn => ?_,
    fun uid l d hd => ?_⟩
  · obtain h | h := hitem ref item hi
    · exact ⟨_, h.2⟩
    · exact ⟨_, h.2⟩
  · rcases hitem ref item hi with ⟨rfl, h⟩ | ⟨rfl, h⟩ <;>
      rcases hitem ref' item' hi' with ⟨rfl, h'⟩ | ⟨rfl, h'⟩ <;>
      simp [h, h'] at hn ⊢
  · rcases Store.line_of_setLine hd with ⟨-, -, rfl⟩ | hd
    · exact ⟨_, rfl, rfl⟩
    · cases hd

/-- Ann takes a tripod while she gives her camera back, each operation of one
call between two of the other. -/
theorem independent_calls_studio :
    ∃ c, Run (fun _ => Call.CarriedOut studio)
        ⟨studio, startAll (fun i : Bool => bif i then tripod else camera)
          (fun _ => "ann") (fun i => bif i then .add 1 else .remove "l")⟩ c ∧
      c.shared.stock camera = 2 ∧ c.shared.stock tripod = 0 ∧
      ∀ s, Interleave.InTurn (fun _ => Call.CarriedOut studio) Call.Finished
        (startAll (fun i : Bool => bif i then tripod else camera)
          (fun _ => "ann") (fun i => bif i then .add 1 else .remove "l"))
        [false, true] studio s → studio.SameUpToNewIds c.shared s := by
  obtain ⟨c, hrun, hfin, hcamera, htripod⟩ :
      ∃ c, Run (fun _ => Call.CarriedOut studio)
        ⟨studio, startAll (fun i : Bool => bif i then tripod else camera)
          (fun _ => "ann") (fun i => bif i then .add 1 else .remove "l")⟩ c ∧
      (∀ i, (c.locals i).Finished) ∧
      c.shared.stock camera = 2 ∧ c.shared.stock tripod = 0 :=
    exists_run_of_play (fun _ => Call.carry? studio)
      (fun _ _ _ _ _ _ => Call.carriedOut_of_carry?)
      [(true, ""), (false, ""), (true, ""), (false, ""), (true, ""),
        (false, ""), (true, "n"), (false, "")]
      (by decide +kernel)
  refine ⟨c, hrun, hcamera, htripod, ?_⟩
  refine (independent_calls studio_wellNamed (by decide) (fun i => ?_) hrun hfin
    (by decide) (by decide)).2
  cases i
  · exact ⟨cameraLine 1, by simp [studio, Store.line_setLine], rfl⟩
  · exact le_refl _

/-- Ann's line records the tripod, but under the camera's name. -/
def misnamed : Store ℤ :=
  studio.setLine "ann" "l" { cameraLine 1 with itemID := "tri" }

/-- Ann adds a camera and gives her tripod back. Her line is found under the
camera's name if the add comes first, and then two tripods come back. -/
theorem misnamed_line_interferes :
    (∀ ref ref' item item', misnamed.items ref = some item →
      misnamed.items ref' = some item' → item.name = item'.name →
        ref = ref') ∧
    (Job.add 1).Valid misnamed camera "ann" ∧
    (Job.remove "l").Valid misnamed tripod "ann" ∧
    ∃ c s, Run (fun _ => Call.CarriedOut misnamed)
        ⟨misnamed, startAll (fun i : Bool => bif i then camera else tripod)
          (fun _ => "ann") (fun i => bif i then .add 1 else .remove "l")⟩ c ∧
      (∀ i, (c.locals i).Finished) ∧
      Interleave.InTurn (fun _ => Call.CarriedOut misnamed) Call.Finished
        (startAll (fun i : Bool => bif i then camera else tripod)
          (fun _ => "ann") (fun i => bif i then .add 1 else .remove "l"))
        [false, true] misnamed s ∧
      ¬ misnamed.SameUpToNewIds c.shared s := by
  refine ⟨studio_wellNamed.distinct, le_refl _,
    ⟨_, by rw [misnamed, Store.line_setLine]; rfl, rfl⟩, ?_⟩
  obtain ⟨c, hrun, hfin, hthree⟩ :
      ∃ c, Run (fun _ => Call.CarriedOut misnamed)
        ⟨misnamed, startAll (fun i : Bool => bif i then camera else tripod)
          (fun _ => "ann") (fun i => bif i then .add 1 else .remove "l")⟩ c ∧
      (∀ i, (c.locals i).Finished) ∧ c.shared.stock tripod = 3 :=
    exists_run_of_play (fun _ => Call.carry? misnamed)
      (fun _ _ _ _ _ _ => Call.carriedOut_of_carry?)
      [(true, ""), (true, ""), (true, ""), (true, ""), (false, ""),
        (false, ""), (false, ""), (false, "")]
      (by decide +kernel)
  obtain ⟨s, hs, htwo⟩ :
      ∃ s, Interleave.InTurn (fun _ => Call.CarriedOut misnamed) Call.Finished
        (startAll (fun i : Bool => bif i then camera else tripod)
          (fun _ => "ann") (fun i => bif i then .add 1 else .remove "l"))
        [false, true] misnamed s ∧ s.stock tripod = 2 :=
    exists_inTurn_of_play (fun _ => Call.carry? misnamed)
      (fun _ _ _ _ _ _ => Call.carriedOut_of_carry?)
      [(false, ["", "", "", ""]), (true, ["", "", "", "n"])]
      (by decide +kernel)
  refine ⟨c, s, hrun, hfin, hs, fun hsame => ?_⟩
  have hstock : c.shared.stock tripod = s.stock tripod := by
    rw [Store.stock, hsame.items, Store.stock]
  rw [hthree, htwo] at hstock
  exact absurd hstock (by decide)

end PhoRent
