import PhoRent.Proofs.ShopServed

/-!
# Units in hand

A call takes units from one place and puts them down in another, with other
operations in between: an add has taken them from the shelf once the stock has
been updated, a removal out of the basket once the line has been deleted. Until
it has put them down they are in its hands. Counted as if they had arrived
already, every step of a call is either a step of a customer or none.

A call relies on what it has read. It may, as long as nobody else works on the
same item: what it has read is of its item's stock document and of its
caller's lines of the item, and a call about another item touches neither.
-/

namespace PhoRent

namespace Call

/-! ## What a call is about

Of a call that is over nothing matters any more. -/

def item? : Call ℤ → Option ItemRef
  | .add (.getItem req) | .add (.updateStock req _ _)
  | .add (.queryBasket req _ _ _) | .add (.setLine req _ _)
  | .add (.updateLines req _ _ _) => some req.ref
  | .delete (.getLine req) | .delete (.deleteLine req _) => req.ref?
  | .delete (.getItem _ _ ref) | .delete (.updateStock _ _ ref _) => some ref
  | _ => none

def caller? : Call ℤ → Option String
  | .add (.getItem req) | .add (.updateStock req _ _)
  | .add (.queryBasket req _ _ _) | .add (.setLine req _ _)
  | .add (.updateLines req _ _ _) => req.uid
  | .delete (.getLine req) | .delete (.deleteLine req _)
  | .delete (.getItem req _ _) | .delete (.updateStock req _ _ _) =>
      some req.uid
  | _ => none

def lineID? : Call ℤ → Option String
  | .delete (.getLine req) => some req.itemID
  | _ => none

/-- Units of the item that are out of the basket and not on the shelf yet. -/
def toShelf (ref : ItemRef) : Call ℤ → ℤ
  | .delete (.getItem _ n r) | .delete (.updateStock _ n r _) =>
      if ref = r then n else 0
  | _ => 0

/-- Units of the item that are off the shelf and not in the basket yet. -/
def toBasket (uid : String) (ref : ItemRef) : Call ℤ → ℤ
  | .add (.queryBasket req _ u _) | .add (.setLine req u _)
  | .add (.updateLines req u _ _) =>
      if uid = u ∧ ref = req.ref then req.elementCount else 0
  | _ => 0

/-- Where a call can stand, with what it has read still true. -/
inductive InHand (s : Store ℤ) : Call ℤ → Prop
  | asked {ref : ItemRef} {uid : String} {n : ℤ} (hn : 1 ≤ n) :
      InHand s (.add (.getItem (.of ref uid n)))
  | served {ref : ItemRef} {uid : String} {n : ℤ} {item : ItemDoc ℤ}
      (hn : 1 ≤ n) (hi : s.items ref = some item) (hle : n ≤ item.count) :
      InHand s (.add (.updateStock (.of ref uid n) item (item.count - n)))
  | drawn {ref : ItemRef} {uid : String} {n : ℤ} {item item' : ItemDoc ℤ}
      {name : String} (hi : s.items ref = some item')
      (hcopy : item.name = item'.name) (hname : item'.name = some name) :
      InHand s (.add (.queryBasket (.of ref uid n) item uid name))
  | unlisted {ref : ItemRef} {uid : String} {n : ℤ} {item item' : ItemDoc ℤ}
      (hi : s.items ref = some item') (hcopy : item.name = item'.name)
      (hnone : ∀ l d, s.line uid l = some d → d.ref ≠ ref) :
      InHand s (.add (.setLine (.of ref uid n) uid
        (AddCall.newLine (.of ref uid n) item)))
  | listed {ref : ItemRef} {uid : String} {n : ℤ} {l : String} {d : LineDoc ℤ}
      (hl : s.line uid l = some d) (href : d.ref = ref) :
      InHand s (.add (.updateLines (.of ref uid n) uid
        [(l, d.count + n)] none))
  | leaving {req : DeleteReq}
      (href : ∀ d, s.line req.uid req.itemID = some d →
        req.ref? = some d.ref) : InHand s (.delete (.getLine req))
  | read {req : DeleteReq} {d : LineDoc ℤ}
      (hl : s.line req.uid req.itemID = some d)
      (href : req.ref? = some d.ref) :
      InHand s (.delete (.deleteLine req d.count))
  | deleted {req : DeleteReq} {n : ℤ} {ref : ItemRef} {item : ItemDoc ℤ}
      (href : req.ref? = some ref) (hi : s.items ref = some item) :
      InHand s (.delete (.getItem req n ref))
  | returning {req : DeleteReq} {n : ℤ} {ref : ItemRef} {item : ItemDoc ℤ}
      (href : req.ref? = some ref) (hi : s.items ref = some item) :
      InHand s (.delete (.updateStock req n ref (item.count + n)))
  | ended {k : Call ℤ} (h : k.Finished) : InHand s k

section Frame

variable {s s' : Store ℤ} {k : Call ℤ} {ref : ItemRef} {uid : String}

theorem toShelf_of_ne (h : k.item? ≠ some ref) : k.toShelf ref = 0 := by
  have hne : ∀ (r : ItemRef) (n : ℤ), k.item? = some r →
      (if ref = r then n else 0) = 0 := by
    intro r n hk
    refine if_neg fun he => h ?_
    rw [hk, he]
  unfold toShelf
  split
  · exact hne _ _ rfl
  · exact hne _ _ rfl
  · rfl

theorem toBasket_of_ne (h : k.item? ≠ some ref) : k.toBasket uid ref = 0 := by
  have hne : ∀ (req : AddReq ℤ) (u : String), k.item? = some req.ref →
      (if uid = u ∧ ref = req.ref then req.elementCount else 0) = 0 := by
    intro req u hk
    refine if_neg fun he => h ?_
    rw [hk, he.2]
  unfold toBasket
  split
  · exact hne _ _ rfl
  · exact hne _ _ rfl
  · exact hne _ _ rfl
  · rfl

theorem item?_of_finished (h : k.Finished) : k.item? = none := by
  unfold item?
  split
  all_goals first | exact h.elim | rfl

theorem caller?_of_finished (h : k.Finished) : k.caller? = none := by
  unfold caller?
  split
  all_goals first | exact h.elim | rfl

/-- What a call has in hand for a basket is for its caller's. -/
theorem InHand.toBasket_of_ne (h : k.InHand s) (hk : k.caller? ≠ some uid) :
    k.toBasket uid ref = 0 := by
  have hne : ∀ {u : String}, k.caller? = some u → uid ≠ u := by
    rintro u hu rfl
    exact hk hu
  cases h with
  | drawn | unlisted | listed => exact if_neg fun he => hne rfl he.1
  | asked | served | leaving | read | deleted | returning => rfl
  | ended h =>
      refine Call.toBasket_of_ne ?_
      rw [item?_of_finished h]
      exact nofun

/-- A call goes by its item's stock document and its caller's lines of the
item; a removal that has not looked yet, by where its line leads. -/
theorem InHand.frame (h : k.InHand s)
    (hitems : ∀ r, k.item? = some r → s'.items r = s.items r)
    (hlines : ∀ u l d, k.caller? = some u → k.item? = some d.ref →
      (s'.line u l = some d ↔ s.line u l = some d))
    (hknown : ∀ u l d', k.caller? = some u → k.lineID? = some l →
      s'.line u l = some d' → ∃ d, s.line u l = some d ∧ d.ref = d'.ref) :
    k.InHand s' := by
  cases h with
  | asked hn => exact .asked hn
  | served hn hi hle => exact .served hn ((hitems _ rfl).trans hi) hle
  | drawn hi hcopy hname => exact .drawn ((hitems _ rfl).trans hi) hcopy hname
  | unlisted hi hcopy hnone =>
      refine .unlisted ((hitems _ rfl).trans hi) hcopy fun l d hd href => ?_
      exact hnone l d ((hlines _ l d rfl (href ▸ rfl)).mp hd) href
  | listed hl href =>
      exact .listed ((hlines _ _ _ rfl (href ▸ rfl)).mpr hl) href
  | leaving href =>
      refine .leaving fun d' hd' => ?_
      obtain ⟨d, hd, heq⟩ := hknown _ _ d' rfl rfl hd'
      exact heq ▸ href d hd
  | read hl href => exact .read ((hlines _ _ _ rfl href).mpr hl) href
  | deleted href hi => exact .deleted href ((hitems _ rfl).trans hi)
  | returning href hi => exact .returning href ((hitems _ rfl).trans hi)
  | ended h => exact .ended h

end Frame

/-! ## What a step leaves alone -/

/-- Only the call's item and its caller's lines of it have changed, and a line
that was not there before is at the id drawn. -/
structure Beside (k : Call ℤ) (id : String) (s s' : Store ℤ) : Prop where
  items : ∀ r, k.item? ≠ some r → s'.items r = s.items r
  users : ∀ u l, k.caller? ≠ some u → s'.line u l = s.line u l
  lines : ∀ u l d, k.item? ≠ some d.ref →
    (s'.line u l = some d ↔ s.line u l = some d)
  known : ∀ u l d', l ≠ id → s'.line u l = some d' →
    ∃ d, s.line u l = some d ∧ d.ref = d'.ref

section Beside

variable {s s' : Store ℤ} {k k' : Call ℤ} {ref : ItemRef} {uid id l : String}
  {d : LineDoc ℤ}

theorem Beside.refl : k.Beside id s s :=
  ⟨fun _ _ => rfl, fun _ _ _ => rfl, fun _ _ _ _ => Iff.rfl,
    fun _ _ d _ hd => ⟨d, hd, rfl⟩⟩

theorem Beside.updateItem {n : ℤ} (hk : k.item? = some ref)
    (hu : s.updateItem ref n = some s') : k.Beside id s s' := by
  have hline := Store.updateItem_line hu
  refine ⟨fun r hr => ?_, fun u l _ => hline u l, fun u l d _ => ?_,
    fun u l d' _ hd' => ⟨d', ?_, rfl⟩⟩
  · rw [Store.updateItem_items hu, if_neg]
    rintro rfl
    exact hr hk
  · rw [hline]
  · rw [← hline]
    exact hd'

/-- A line is written that is new, or was the item's before. -/
theorem Beside.setLine (hk : k.item? = some d.ref)
    (hcaller : k.caller? = some uid)
    (hold : ∀ d₀, s.line uid l = some d₀ → d₀.ref = d.ref)
    (hnew : l ≠ id → s.line uid l ≠ none) :
    k.Beside id s (s.setLine uid l d) := by
  refine ⟨fun _ _ => rfl, fun u l' hu => ?_, fun u l' d' hd' => ?_,
    fun u l' d' hl' hd' => ?_⟩
  · rw [Store.line_setLine, if_neg]
    rintro ⟨rfl, -⟩
    exact hu hcaller
  · rw [Store.line_setLine]
    split
    · next hul =>
        obtain ⟨rfl, rfl⟩ := hul
        refine iff_of_false (fun h => ?_) fun h => ?_
        · rw [← Option.some.inj h] at hd'
          exact hd' hk
        · rw [hold d' h] at hd'
          exact hd' hk
    · exact Iff.rfl
  · rcases Store.line_of_setLine hd' with ⟨rfl, rfl, rfl⟩ | hd'
    · obtain ⟨d₀, hd₀⟩ := Option.ne_none_iff_exists'.mp (hnew hl')
      exact ⟨d₀, hd₀, hold d₀ hd₀⟩
    · exact ⟨d', hd', rfl⟩

theorem Beside.deleteLine (hk : k.item? = some d.ref)
    (hcaller : k.caller? = some uid) (hl : s.line uid l = some d) :
    k.Beside id s (s.deleteLine uid l) := by
  refine ⟨fun _ _ => rfl, fun u l' hu => ?_, fun u l' d' hd' => ?_,
    fun u l' d' _ hd' => ⟨d', Store.line_of_deleteLine hd', rfl⟩⟩
  · rw [Store.line_deleteLine, if_neg]
    rintro ⟨rfl, -⟩
    exact hu hcaller
  · rw [Store.line_deleteLine]
    split
    · next hul =>
        obtain ⟨rfl, rfl⟩ := hul
        refine iff_of_false (fun h => nomatch h) fun h => ?_
        obtain rfl := Option.some.inj (hl.symm.trans h)
        exact hd' hk
    · exact Iff.rfl

/-- A call about another item goes on as if nothing had happened. -/
theorem InHand.beside (h : k'.InHand s) (hb : k.Beside id s s')
    (hitem : ∀ r, k'.item? = some r → k.item? ≠ some r)
    (hline : k'.lineID? ≠ some id) : k'.InHand s' := by
  refine h.frame (fun r hr => hb.items r (hitem r hr))
    (fun u l d _ hd => hb.lines u l d (hitem _ hd)) fun u l d' _ hl hd' => ?_
  refine hb.known u l d' ?_ hd'
  rintro rfl
  exact hline hl

/-- So does a call of another user when a line is deleted. -/
theorem InHand.deleteLine (h : k.InHand s) (hk : k.caller? ≠ some uid) :
    k.InHand (s.deleteLine uid l) := by
  refine h.frame (fun _ _ => rfl) (fun u l' d hu _ => ?_)
    fun u l' d' _ _ hd' => ⟨d', Store.line_of_deleteLine hd', rfl⟩
  rw [Store.line_deleteLine, if_neg]
  rintro ⟨rfl, -⟩
  exact hk hu

end Beside

/-! ## What a step does -/

/-- `n` units of the item have gone from the shelf to the basket, those in the
call's hands included. -/
structure Moves (uid : String) (ref : ItemRef) (n : ℤ) (s : Store ℤ)
    (k : Call ℤ) (s' : Store ℤ) (k' : Call ℤ) : Prop where
  shelf : ∀ r, s'.stock r + k'.toShelf r =
    s.stock r + k.toShelf r - if r = ref then n else 0
  basket : ∀ u r, s'.basketOf u r + k'.toBasket u r =
    s.basketOf u r + k.toBasket u r + if u = uid ∧ r = ref then n else 0
  orders : s'.orders = s.orders

/-- What a call may move with empty hands: units there are on the shelf, or all
there are in the basket. -/
structure MayMove (uid : String) (ref : ItemRef) (n : ℤ) (s : Store ℤ)
    (k : Call ℤ) : Prop where
  item : k.item? = some ref
  caller : k.caller? = some uid
  shelf : k.toShelf ref = 0
  basket : k.toBasket uid ref = 0
  units : 1 ≤ n ∧ n ≤ s.stock ref ∨ n = -s.basketOf uid ref

/-- A step of a call, everything said. -/
structure Advances (id : String) (s : Store ℤ) (k : Call ℤ) (s' : Store ℤ)
    (k' : Call ℤ) : Prop where
  inHand : k'.InHand s'
  sound : s'.Sound
  beside : k.Beside id s s'
  item : ∀ r, k'.item? = some r → k.item? = some r
  caller : ∀ u, k'.caller? = some u → k.caller? = some u
  moves : ∃ uid ref n, Moves uid ref n s k s' k' ∧
    (n = 0 ∨ MayMove uid ref n s k)

section Step

variable {s s' : Store ℤ} {k k' : Call ℤ} {t : Turn} {ref : ItemRef}
  {uid id : String} {n : ℤ}

theorem Advances.of_same (hs : s.Sound) (hk' : k'.InHand s)
    (hitem : ∀ r, k'.item? = some r → k.item? = some r)
    (hcaller : ∀ u, k'.caller? = some u → k.caller? = some u)
    (hshelf : ∀ r, k'.toShelf r = k.toShelf r)
    (hbasket : ∀ u r, k'.toBasket u r = k.toBasket u r) :
    Advances id s k s k' := by
  refine ⟨hk', hs, .refl, hitem, hcaller, "", ⟨"", ""⟩, 0, ?_, Or.inl rfl⟩
  refine ⟨fun r => ?_, fun u r => ?_, rfl⟩
  · rw [hshelf, ite_self, sub_zero]
  · rw [hbasket, ite_self, add_zero]

theorem Advances.of_over (hs : s.Sound) (hk' : k'.Finished)
    (hshelf : ∀ r, k.toShelf r = 0) (hbasket : ∀ u r, k.toBasket u r = 0) :
    Advances id s k s k' := by
  have hitem := item?_of_finished hk'
  have hcaller := caller?_of_finished hk'
  refine .of_same hs (.ended hk') (fun r hr => ?_) (fun u hu => ?_)
    (fun r => ?_) fun u r => ?_
  · rw [hitem] at hr
    cases hr
  · rw [hcaller] at hu
    cases hu
  · rw [hshelf, toShelf_of_ne]
    rw [hitem]
    exact nofun
  · rw [hbasket, toBasket_of_ne]
    rw [hitem]
    exact nofun

end Step

end Call

section Sound

variable {s : Store ℤ} {uid l : String} {d : LineDoc ℤ}

theorem Store.Sound.setLine_new (h : s.Sound) {item : ItemDoc ℤ}
    (hi : s.items d.ref = some item) (hn : d.name = item.name)
    (hnone : ∀ l' d', s.line uid l' = some d' → d'.ref ≠ d.ref) :
    (s.setLine uid l d).Sound :=
  ⟨h.named.setLine hi hn, h.proper, fun u r => (h.single u r).setLine hnone⟩

theorem Store.Sound.setLine_count (h : s.Sound) (hl : s.line uid l = some d)
    (n : ℤ) : (s.setLine uid l { d with count := n }).Sound := by
  obtain ⟨item, hi, hn⟩ := h.named.line uid l d hl
  have hd : { d with count := n }.ref = d.ref := rfl
  refine ⟨h.named.setLine (hd.symm ▸ hi) hn, h.proper, fun u r =>
    (h.single u r).mono fun l' d' hd' => ?_⟩
  rcases Store.line_of_setLine hd' with ⟨rfl, rfl, rfl⟩ | hd'
  · exact ⟨d, hl, rfl⟩
  · exact ⟨d', hd', rfl⟩

end Sound

namespace Call

section Step

variable {s s' : Store ℤ} {k' : Call ℤ} {t : Turn} {ref : ItemRef}
  {uid : String} {n : ℤ} {item item' : ItemDoc ℤ}

/-- The stock is looked at. -/
theorem advances_asked (hs : s.Sound) (hn : 1 ≤ n) (hok : t.ok = true)
    (hstep : Call.step t s (.add (.getItem (.of ref uid n))) = (s', k')) :
    Advances t.autoId s (.add (.getItem (.of ref uid n))) s' k' := by
  simp only [Call.step, AddCall.step, Prod.map_apply, id_eq, hok, if_true,
    AddReq.of_ref] at hstep
  obtain ⟨rfl, rfl⟩ := Prod.mk.inj hstep
  cases hi : s.items ref with
  | none => exact .of_over hs trivial (fun _ => rfl) fun _ _ => rfl
  | some item =>
      rw [AddCall.onItem_of]
      split
      · next hle =>
          exact .of_same hs (.served hn hi hle) (fun _ h => h) (fun _ h => h)
            (fun _ => rfl) fun _ _ => rfl
      · exact .of_over hs trivial (fun _ => rfl) fun _ _ => rfl

/-- The units are taken off the shelf. -/
theorem advances_served (hs : s.Sound) (hn : 1 ≤ n)
    (hi : s.items ref = some item) (hle : n ≤ item.count) (hok : t.ok = true)
    (hstep : Call.step t s (.add (.updateStock (.of ref uid n) item
      (item.count - n))) = (s', k')) :
    Advances t.autoId s (.add (.updateStock (.of ref uid n) item
      (item.count - n))) s' k' := by
  obtain ⟨s₁, hu⟩ := Store.exists_updateItem hi (item.count - n)
  obtain ⟨name, hname⟩ := hs.named.named ref item hi
  simp only [Call.step, AddCall.step, Prod.map_apply, id_eq, hok, if_true,
    AddReq.of_ref, hu, AddCall.onStockUpdated_of hname] at hstep
  obtain ⟨rfl, rfl⟩ := Prod.mk.inj hstep
  have hi₁ : s₁.items ref = some { item with count := item.count - n } := by
    rw [Store.updateItem_items hu, if_pos rfl, hi]
    rfl
  have hst := Store.stock_of_items hi
  refine ⟨.drawn hi₁ rfl hname, hs.updateItem hu, .updateItem rfl hu,
    fun _ h => h, fun _ h => h, uid, ref, n, ⟨fun r => ?_, fun u r => ?_,
      Store.updateItem_orders hu⟩, Or.inr ⟨rfl, rfl, rfl, rfl,
        Or.inl ⟨hn, hst ▸ hle⟩⟩⟩
  · rw [Store.stock_updateItem hu]
    simp only [toShelf]
    split
    · next hr => rw [hr, hst]; omega
    · omega
  · rw [Store.basketOf_updateItem hu]
    change _ = _ + 0 + _
    rw [add_zero]
    rfl

/-- The lines are looked at: there is none of the item, or one. -/
theorem advances_drawn (hs : s.Sound) {name : String}
    (hi : s.items ref = some item') (hcopy : item.name = item'.name)
    (hname : item'.name = some name) (hok : t.ok = true)
    (hstep : Call.step t s (.add (.queryBasket (.of ref uid n) item uid
      name)) = (s', k')) :
    Advances t.autoId s (.add (.queryBasket (.of ref uid n) item uid name))
      s' k' := by
  simp only [Call.step, AddCall.step, Prod.map_apply, id_eq, hok, if_true]
    at hstep
  obtain ⟨rfl, rfl⟩ := Prod.mk.inj hstep
  have hnames : s.NamesLines uid ref name := fun l d hd =>
    hs.named.name_iff ⟨item', hi, hname⟩ hd
  rcases (hs.single uid ref).linesNamed hnames with hq | ⟨l, d, hl, href, hq⟩
  · have hnone : ∀ l d, s.line uid l = some d → d.ref ≠ ref :=
      fun l d hd href => Store.linesNamed_eq_nil.mp hq l d hd
        ((hnames l d hd).mpr href)
    simp only [hq, AddCall.onBasket, Count.storable_int, if_true]
    exact .of_same hs (.unlisted hi hcopy hnone) (fun _ h => h) (fun _ h => h)
      (fun _ => rfl) fun _ _ => rfl
  · simp only [hq, AddCall.onBasket, List.map_singleton, Count.add_int]
    exact .of_same hs (.listed hl href) (fun _ h => h) (fun _ h => h)
      (fun _ => rfl) fun _ _ => rfl

/-- A new line is written. -/
theorem advances_unlisted (hs : s.Sound) (hi : s.items ref = some item')
    (hcopy : item.name = item'.name)
    (hnone : ∀ l d, s.line uid l = some d → d.ref ≠ ref) (hok : t.ok = true)
    (hfresh : t.Fresh s)
    (hstep : Call.step t s (.add (.setLine (.of ref uid n) uid
      (AddCall.newLine (.of ref uid n) item))) = (s', k')) :
    Advances t.autoId s (.add (.setLine (.of ref uid n) uid
      (AddCall.newLine (.of ref uid n) item))) s' k' := by
  simp only [Call.step, AddCall.step, Prod.map_apply, id_eq, hok, if_true]
    at hstep
  obtain ⟨rfl, rfl⟩ := Prod.mk.inj hstep
  have href : (AddCall.newLine (.of ref uid n) item).ref = ref := rfl
  refine ⟨.ended trivial, hs.setLine_new (href ▸ hi) hcopy hnone,
    .setLine rfl rfl (fun d hd => ?_) (fun h => absurd rfl h),
    fun _ h => (by cases h), fun _ h => (by cases h), uid, ref, 0,
    ⟨fun r => ?_, fun u r => ?_, rfl⟩, Or.inl rfl⟩
  · rw [hfresh] at hd
    cases hd
  · rw [ite_self, sub_zero]
    rfl
  · rw [Store.basketOf, Store.held_setLine_new (hfresh uid), ← Store.basketOf,
      Store.linesOf_bif, ite_self, add_zero]
    exact add_zero _

/-- The units are put into the line there is. -/
theorem advances_listed (hs : s.Sound) {l : String} {d : LineDoc ℤ}
    (hl : s.line uid l = some d) (href : d.ref = ref) (hok : t.ok = true)
    (hstep : Call.step t s (.add (.updateLines (.of ref uid n) uid
      [(l, d.count + n)] none)) = (s', k')) :
    Advances t.autoId s (.add (.updateLines (.of ref uid n) uid
      [(l, d.count + n)] none)) s' k' := by
  subst href
  have hu : s.updateLine uid l (d.count + n) =
      some (s.setLine uid l { d with count := d.count + n }) := by
    rw [Store.updateLine, hl, Option.map_some]
  simp only [Call.step, AddCall.step] at hstep
  cases hk : [(l, d.count + n)][t.pick]? with
  | none =>
      -- there is no such update, and nothing is answered
      simp only [hk, Prod.map_apply, id_eq] at hstep
      obtain ⟨rfl, rfl⟩ := Prod.mk.inj hstep
      exact .of_same hs (.listed hl rfl) (fun _ h => h) (fun _ h => h)
        (fun _ => rfl) fun _ _ => rfl
  | some e =>
      obtain ⟨hlt, rfl⟩ := List.getElem?_eq_some_iff.mp hk
      obtain hpick : t.pick = 0 := by simpa using hlt
      simp only [hpick, List.getElem?_cons_zero, hok, if_true, hu,
        List.eraseIdx_cons_zero, Prod.map_apply, id_eq] at hstep
      obtain ⟨rfl, rfl⟩ := Prod.mk.inj hstep
      refine ⟨.ended trivial, hs.setLine_count hl _,
        .setLine rfl rfl (fun d₀ hd₀ => ?_) (fun _ => ?_),
        fun _ h => (by cases h), fun _ h => (by cases h), uid, d.ref, 0,
        ⟨fun r => ?_, fun u r => ?_, rfl⟩, Or.inl rfl⟩
      · obtain rfl := Option.some.inj (hl.symm.trans hd₀)
        rfl
      · rw [hl]
        exact Option.some_ne_none _
      · rw [ite_self, sub_zero]
        rfl
      · rw [Store.basketOf, Store.held_setLine_count hl, ← Store.basketOf,
          Store.linesOf_bif, add_sub_cancel_left, ite_self, add_zero]
        exact add_zero _

/-- The line is looked at. -/
theorem advances_leaving (hs : s.Sound) {req : DeleteReq}
    (href : ∀ d, s.line req.uid req.itemID = some d → req.ref? = some d.ref)
    (hok : t.ok = true)
    (hstep : Call.step t s (.delete (.getLine req)) = (s', k')) :
    Advances t.autoId s (.delete (.getLine req)) s' k' := by
  simp only [Call.step, DeleteCall.step, Prod.map_apply, id_eq, hok, if_true]
    at hstep
  obtain ⟨rfl, rfl⟩ := Prod.mk.inj hstep
  cases hl : s.line req.uid req.itemID with
  | none => exact .of_over hs trivial (fun _ => rfl) fun _ _ => rfl
  | some d =>
      exact .of_same hs (.read hl (href d hl)) (fun _ h => h) (fun _ h => h)
        (fun _ => rfl) fun _ _ => rfl

/-- The line is deleted, and its units are out of the basket. -/
theorem advances_read (hs : s.Sound) {req : DeleteReq} {d : LineDoc ℤ}
    (hl : s.line req.uid req.itemID = some d) (href : req.ref? = some d.ref)
    (hok : t.ok = true)
    (hstep : Call.step t s (.delete (.deleteLine req d.count)) = (s', k')) :
    Advances t.autoId s (.delete (.deleteLine req d.count)) s' k' := by
  simp only [Call.step, DeleteCall.step, Prod.map_apply, id_eq, hok, if_true,
    DeleteCall.onDeleted, href] at hstep
  obtain ⟨rfl, rfl⟩ := Prod.mk.inj hstep
  obtain ⟨item, hi, -⟩ := hs.named.line _ _ d hl
  refine ⟨.deleted href hi, hs.deleteLine _ _, .deleteLine href rfl hl,
    fun r hr => href.trans hr, fun _ h => h, req.uid, d.ref, -d.count,
    ⟨fun r => ?_, fun u r => ?_, rfl⟩, Or.inr ⟨href, rfl, rfl, rfl, Or.inr ?_⟩⟩
  · change s.stock r + (if r = d.ref then d.count else 0) =
      s.stock r + 0 - if r = d.ref then -d.count else 0
    split <;> omega
  · rw [Store.basketOf, Store.held_deleteLine hl, ← Store.basketOf,
      Store.linesOf_bif]
    change _ + 0 = _ + 0 + _
    split <;> omega
  · rw [Store.basketOf_line (hs.single _ _) hl]

/-- The stock is looked at once more. -/
theorem advances_deleted (hs : s.Sound) {req : DeleteReq}
    (href : req.ref? = some ref) (hi : s.items ref = some item)
    (hok : t.ok = true)
    (hstep : Call.step t s (.delete (.getItem req n ref)) = (s', k')) :
    Advances t.autoId s (.delete (.getItem req n ref)) s' k' := by
  simp only [Call.step, DeleteCall.step, Prod.map_apply, id_eq, hok, if_true,
    hi, DeleteCall.onItem, Count.add_int] at hstep
  obtain ⟨rfl, rfl⟩ := Prod.mk.inj hstep
  exact .of_same hs (.returning href hi) (fun _ h => h) (fun _ h => h)
    (fun _ => rfl) fun _ _ => rfl

/-- The units are put on the shelf. -/
theorem advances_returning (hs : s.Sound) {req : DeleteReq}
    (hi : s.items ref = some item) (hok : t.ok = true)
    (hstep : Call.step t s (.delete (.updateStock req n ref
      (item.count + n))) = (s', k')) :
    Advances t.autoId s (.delete (.updateStock req n ref (item.count + n)))
      s' k' := by
  obtain ⟨s₁, hu⟩ := Store.exists_updateItem hi (item.count + n)
  have hst := Store.stock_of_items hi
  simp only [Call.step, DeleteCall.step, Prod.map_apply, id_eq, hok, if_true,
    hu] at hstep
  obtain ⟨rfl, rfl⟩ := Prod.mk.inj hstep
  refine ⟨.ended trivial, hs.updateItem hu, .updateItem rfl hu,
    fun _ h => (by cases h), fun _ h => (by cases h), req.uid, ref, 0,
    ⟨fun r => ?_, fun u r => ?_, Store.updateItem_orders hu⟩, Or.inl rfl⟩
  · rw [Store.stock_updateItem hu]
    change _ + 0 = s.stock r + (if r = ref then n else 0) - ite _ _ _
    split
    · next hr => rw [hr, hst]; omega
    · omega
  · rw [Store.basketOf_updateItem hu, ite_self, add_zero]
    rfl

/-- The step lemma: a call goes on from where it stands, and moves units as a
customer may. -/
theorem InHand.advances {k : Call ℤ} (h : k.InHand s) (hs : s.Sound)
    (hok : t.ok = true) (hfresh : t.Fresh s)
    (hstep : k.step t s = (s', k')) : Advances t.autoId s k s' k' := by
  cases h with
  | asked hn => exact advances_asked hs hn hok hstep
  | served hn hi hle => exact advances_served hs hn hi hle hok hstep
  | drawn hi hcopy hname => exact advances_drawn hs hi hcopy hname hok hstep
  | unlisted hi hcopy hnone =>
      exact advances_unlisted hs hi hcopy hnone hok hfresh hstep
  | listed hl href => exact advances_listed hs hl href hok hstep
  | leaving href => exact advances_leaving hs href hok hstep
  | read hl href => exact advances_read hs hl href hok hstep
  | deleted href hi => exact advances_deleted hs href hi hok hstep
  | returning href hi => exact advances_returning hs hi hok hstep
  | ended h =>
      rw [Call.Finished.step h] at hstep
      obtain ⟨rfl, rfl⟩ := Prod.mk.inj hstep
      exact .of_same hs (.ended h) (fun _ h => h) (fun _ h => h)
        (fun _ => rfl) fun _ _ => rfl

end Step

end Call

end PhoRent
