import PhoRent.Proofs.Effect

/-!
# The right item

An add takes its units out of the stock document the client names and looks
for the basket line by the item's display name. A removal reads the units off
a basket line and puts them into the stock document the client names. Neither
looks at the two ids a basket line carries, which say whose units it holds.
This file says exactly when they hit the right item all the same.
-/

namespace PhoRent

/-! ## Adds -/

section Add

variable {s s' : Store ℤ} {ref : ItemRef} {uid name : String} {n : ℤ}

/-- One line of the user records the item and has grown by `n`, or has been
created with `n` where there was none; all other lines, and the stock of all
other items, are as they were. -/
def Lands (s s' : Store ℤ) (ref : ItemRef) (uid : String) (n : ℤ) : Prop :=
  ∃ l, ((∃ d, s.line uid l = some d ∧ d.ref = ref ∧
        s'.line uid l = some { d with count := d.count + n }) ∨
      ((∀ l d, s.line uid l = some d → d.ref ≠ ref) ∧ s.line uid l = none ∧
        ∃ d, s'.line uid l = some d ∧ d.ref = ref ∧ d.count = n)) ∧
    (∀ u l', ¬ (u = uid ∧ l' = l) → s'.line u l' = s.line u l') ∧
    ∀ r, r ≠ ref → s'.items r = s.items r

/-- In the user's basket one line has the item's name, and it records the
item; or no line has the name, and none records the item. -/
def Store.NameIsItem (s : Store ℤ) (uid : String) (ref : ItemRef) : Prop :=
  ∃ name, s.Named ref name ∧
    ((∃ l d, s.linesNamed uid name = [(l, d)] ∧ d.ref = ref) ∨
      (s.linesNamed uid name = [] ∧
        ∀ l d, s.line uid l = some d → d.ref ≠ ref))

theorem LineDoc.add_count_ne (hn : 1 ≤ n) (d : LineDoc ℤ) :
    { d with count := d.count + n } ≠ d := by
  intro h
  have hc : d.count + n = d.count := congrArg (fun d : LineDoc ℤ => d.count) h
  omega

theorem lands_created {s₁ : Store ℤ} {id : String} {d : LineDoc ℤ}
    (hn : 1 ≤ n) (hline : ∀ u l, s₁.line u l = s.line u l)
    (hitems : ∀ r, r ≠ ref → s₁.items r = s.items r)
    (hid : s.line uid id = none) (href : d.ref = ref) (hcount : d.count = n) :
    Lands s (s₁.setLine uid id d) ref uid n ↔
      ∀ l d, s.line uid l = some d → d.ref ≠ ref := by
  constructor
  · intro h
    obtain ⟨l, ⟨d₀, hl, -, hl'⟩ | ⟨hnone, -⟩, -, -⟩ := h
    · -- a line that was there has the count it had
      rw [Store.line_setLine, hline, hl] at hl'
      split at hl'
      · next heq =>
          rw [heq.2, hid] at hl
          cases hl
      · exact absurd (Option.some.inj hl').symm (LineDoc.add_count_ne hn d₀)
    · exact hnone
  · intro hnone
    have hnew : (s₁.setLine uid id d).line uid id = some d := by
      simp [Store.line_setLine]
    refine ⟨id, Or.inr ⟨hnone, hid, d, hnew, href, hcount⟩, ?_, hitems⟩
    intro u l hne
    rw [Store.line_setLine, if_neg hne, hline]

theorem lands_updated (hn : 1 ≤ n) (hq : s.linesNamed uid name ≠ [])
    (hitems : ∀ r, r ≠ ref → s'.items r = s.items r)
    (h : LinesUpdated .all uid
      ((s.linesNamed uid name).map fun e => (e.1, e.2.count + n)) s s') :
    Lands s s' ref uid n ↔
      ∃ l d, s.linesNamed uid name = [(l, d)] ∧ d.ref = ref := by
  have hgrown : ∀ l d, (l, d) ∈ s.linesNamed uid name →
      s.line uid l = some d ∧
        s'.line uid l = some { d with count := d.count + n } := by
    intro l d he
    have hl := (Store.mem_linesNamed.mp he).1
    refine ⟨hl, ?_⟩
    rw [h.1 _ (List.mem_map_of_mem he) rfl, hl]
    rfl
  constructor
  · intro hlands
    obtain ⟨l, hown, hframe, -⟩ := hlands
    -- all lines of the name have grown, and only one line may
    have hkey : ∀ e ∈ s.linesNamed uid name, e.1 = l := by
      intro e he
      by_contra hne
      obtain ⟨hl, hl'⟩ := hgrown e.1 e.2 he
      rw [hframe uid e.1 fun heq => hne heq.2, hl] at hl'
      exact LineDoc.add_count_ne hn e.2 (Option.some.inj hl').symm
    obtain ⟨⟨l₀, d₀⟩, rest, hdocs⟩ := List.exists_cons_of_ne_nil hq
    have hrest : rest = [] := by
      have hnodup := s.linesNamed_nodup uid name
      cases rest with
      | nil => rfl
      | cons e rest =>
          rw [hdocs] at hkey hnodup
          have hl₀ : l₀ = l := hkey (l₀, d₀) (by simp)
          have he : e.1 = l := hkey e (by simp)
          simp [hl₀, he] at hnodup
    subst hrest
    obtain rfl : l₀ = l := hkey (l₀, d₀) (by simp [hdocs])
    obtain ⟨hl, -⟩ := hgrown l₀ d₀ (by simp [hdocs])
    refine ⟨l₀, d₀, hdocs, ?_⟩
    obtain ⟨d, hd, href, -⟩ | ⟨-, hnone, -⟩ := hown
    · rw [hl] at hd
      rw [Option.some.inj hd]
      exact href
    · rw [hl] at hnone
      cases hnone
  · intro hex
    obtain ⟨l, d, hdocs, href⟩ := hex
    obtain ⟨hl, hl'⟩ := hgrown l d (by simp [hdocs])
    rw [hdocs, List.map_singleton] at h
    refine ⟨l, Or.inl ⟨d, hl, href, hl'⟩, fun u l' hne => ?_, hitems⟩
    rw [h.line_single hl, Store.line_setLine, if_neg hne]

end Add

/-- An accepted add lands on its own item's line if and only if, among the
user's lines, the item's name leads to the item's line. -/
theorem add_lands_iff {s : Store ℤ} {ref : ItemRef} {uid : String} {n : ℤ}
    (hproper : ref.Proper) (hn : 1 ≤ n) {v : Returned} {call : Call ℤ}
    (hcall : addItemInBasket
      (some ⟨.str ref.itemID, .str ref.categoryID, n⟩) (some uid) =
        .returned v call)
    {z : Store ℤ × Call ℤ} (hrun : RunAlone .all (s, call) z)
    (hfin : z.2.Finished) (haccepted : z.2.error? = none) :
    Lands s z.1 ref uid n ↔ s.NameIsItem uid ref := by
  rw [addItemInBasket_of hproper] at hcall
  obtain ⟨-, rfl⟩ := Handled.returned.inj hcall
  obtain ⟨item, name, s₁, hi, hname, hu, hz, hend⟩ :=
    (add_outcome z hrun hfin).accepted haccepted
  have hitems : ∀ r, r ≠ ref → s₁.items r = s.items r := by
    intro r hr
    rw [Store.updateItem_items hu, if_neg hr]
  have hcond : s.NameIsItem uid ref ↔
      (∃ l d, s.linesNamed uid name = [(l, d)] ∧ d.ref = ref) ∨
        (s.linesNamed uid name = [] ∧
          ∀ l d, s.line uid l = some d → d.ref ≠ ref) := by
    constructor
    · intro hex
      obtain ⟨name', ⟨item', hi', hname'⟩, hown⟩ := hex
      obtain rfl : item' = item := Option.some.inj (hi'.symm.trans hi)
      obtain rfl : name' = name :=
        Option.some.inj (hname'.symm.trans hname)
      exact hown
    · exact fun hown => ⟨name, ⟨item, hi, hname⟩, hown⟩
  rw [hcond]
  obtain ⟨hq, id, hid, hz₁⟩ | ⟨hq, hlines⟩ := hend
  · rw [hz₁, lands_created hn (Store.updateItem_line hu) hitems (hid uid)
      rfl rfl, hq]
    simp
  · rw [lands_updated hn hq (fun r hr => by rw [hz]; exact hitems r hr) hlines]
    simp [hq]

/-! ## Removals -/

section Delete

variable {V : Type} [Count V] {s s' : Store V} {uid : String}

/-- Nothing has changed; or one line of the user is gone, and its count has
been added to the stock of the item it records. -/
def GivesBack (s s' : Store V) (uid : String) : Prop :=
  s' = s ∨ ∃ l d item, s.line uid l = some d ∧ s.items d.ref = some item ∧
    (s.deleteLine uid l).updateItem d.ref (Count.add item.count d.count) =
      some s'

/-- The line is not there; or its item is in the catalogue, and the arguments
lead there, unless a count is added that changes nothing. -/
def DeleteReq.LeadsBack (req : DeleteReq) (s : Store V) : Prop :=
  ∀ d, s.line req.uid req.itemID = some d →
    ∃ item, s.items d.ref = some item ∧
      (req.ref? = some d.ref ∨
        (Count.add item.count d.count = item.count ∧
          ∀ ref, req.ref? = some ref → ∀ item', s.items ref = some item' →
            Count.add item'.count d.count = item'.count))

theorem DeleteReq.leadsBack_iff {req : DeleteReq} {d : LineDoc V}
    (hl : s.line req.uid req.itemID = some d) : req.LeadsBack s ↔
      ∃ item, s.items d.ref = some item ∧
        (req.ref? = some d.ref ∨
          (Count.add item.count d.count = item.count ∧
            ∀ ref, req.ref? = some ref → ∀ item', s.items ref = some item' →
              Count.add item'.count d.count = item'.count)) := by
  simp only [DeleteReq.LeadsBack, hl, Option.some.injEq, forall_eq']

omit [Count V] in
theorem Store.line_updateItem_deleteLine {l : String} {ref : ItemRef} {v : V}
    (hu : (s.deleteLine uid l).updateItem ref v = some s') (u l' : String) :
    s'.line u l' = if u = uid ∧ l' = l then none else s.line u l' := by
  rw [Store.updateItem_line hu, Store.line_deleteLine]

theorem GivesBack.restock {l : String} {d : LineDoc V}
    (h : GivesBack s s' uid) (hl : s.line uid l = some d)
    (hgone : s'.line uid l = none) : ∃ item, s.items d.ref = some item ∧
      (s.deleteLine uid l).updateItem d.ref (Count.add item.count d.count) =
        some s' := by
  obtain rfl | ⟨l', d', item, hl', hi, hu⟩ := h
  · rw [hl] at hgone
    cases hgone
  · rw [Store.line_updateItem_deleteLine hu] at hgone
    split at hgone
    · next heq =>
        rw [← heq.2, hl] at hl'
        rw [← Option.some.inj hl', ← heq.2] at hu
        rw [← Option.some.inj hl'] at hi
        exact ⟨item, hi, hu⟩
    · rw [hl] at hgone
      cases hgone

theorem givesBack_deleteLine {l : String} {d : LineDoc V}
    (hl : s.line uid l = some d) : GivesBack s (s.deleteLine uid l) uid ↔
      ∃ item, s.items d.ref = some item ∧
        Count.add item.count d.count = item.count := by
  have hgone : (s.deleteLine uid l).line uid l = none := by
    simp [Store.line_deleteLine]
  constructor
  · intro h
    obtain ⟨item, hi, hu⟩ := h.restock hl hgone
    refine ⟨item, hi, ?_⟩
    have hsame := Store.updateItem_items hu d.ref
    rw [Store.deleteLine_items, if_pos rfl, hi] at hsame
    exact congrArg (fun i : ItemDoc V => i.count) (Option.some.inj hsame).symm
  · intro hex
    obtain ⟨item, hi, hadd⟩ := hex
    refine Or.inr ⟨l, d, item, hl, hi, ?_⟩
    rw [hadd]
    exact Store.updateItem_same (s := s.deleteLine uid l) hi

theorem givesBack_restocked {l : String} {d : LineDoc V} {ref : ItemRef}
    {item' : ItemDoc V} (hl : s.line uid l = some d)
    (hi' : s.items ref = some item')
    (hu' : (s.deleteLine uid l).updateItem ref
      (Count.add item'.count d.count) = some s') :
    GivesBack s s' uid ↔ ∃ item, s.items d.ref = some item ∧
      (ref = d.ref ∨ (Count.add item.count d.count = item.count ∧
        Count.add item'.count d.count = item'.count)) := by
  have hgone : s'.line uid l = none := by
    simp [Store.line_updateItem_deleteLine hu']
  constructor
  · intro h
    obtain ⟨item, hi, hu⟩ := h.restock hl hgone
    refine ⟨item, hi, ?_⟩
    by_cases hr : ref = d.ref
    · exact Or.inl hr
    · have h₁ := Store.updateItem_items hu d.ref
      have h₂ := Store.updateItem_items hu ref
      rw [Store.updateItem_items hu', if_neg (Ne.symm hr), if_pos rfl] at h₁
      rw [Store.updateItem_items hu', if_pos rfl, if_neg hr] at h₂
      simp only [Store.deleteLine_items, hi, hi', Option.map_some,
        Option.some.injEq] at h₁ h₂
      refine Or.inr ⟨?_, ?_⟩
      · exact congrArg (fun i : ItemDoc V => i.count) h₁.symm
      · exact congrArg (fun i : ItemDoc V => i.count) h₂
  · intro hex
    obtain ⟨item, hi, rfl | ⟨hadd, hadd'⟩⟩ := hex
    · obtain rfl : item' = item := Option.some.inj (hi'.symm.trans hi)
      exact Or.inr ⟨l, d, item', hl, hi, hu'⟩
    · rw [hadd', Store.updateItem_same (s := s.deleteLine uid l) hi'] at hu'
      rw [← Option.some.inj hu', givesBack_deleteLine hl]
      exact ⟨item, hi, hadd⟩

end Delete

/-- A complete removal gives the units of the line it deletes back to their
item if and only if its arguments lead from the line to the item. -/
theorem delete_gives_back_iff {V : Type} [Count V] {s : Store V}
    {data : DeleteData} {uid : String} {v : Returned} {call : Call V}
    (hcall : deleteItemFromBasket (some data) (some uid) = .returned v call)
    {z : Store V × Call V} (hrun : RunAlone .all (s, call) z)
    (hfin : z.2.Finished) :
    GivesBack s z.1 uid ↔ ∀ itemID, docPath data.itemID = some itemID →
      DeleteReq.LeadsBack ⟨uid, itemID, docPath data.categoryID,
        docPath data.dbItemID⟩ s := by
  simp only [deleteItemFromBasket] at hcall
  cases hpath : docPath data.itemID with
  | none =>
      rw [hpath] at hcall
      cases hcall
  | some itemID =>
      simp only [hpath] at hcall
      obtain ⟨-, rfl⟩ := Handled.returned.inj hcall
      simp only [Option.some.injEq, forall_eq']
      have hend := delete_outcome z hrun hfin
      cases hend with
      | absent hl =>
          have hleads : DeleteReq.LeadsBack ⟨uid, itemID,
              docPath data.categoryID, docPath data.dbItemID⟩ s := by
            intro d hd
            rw [hl] at hd
            cases hd
          exact iff_of_true (Or.inl rfl) hleads
      | nowhere hl href =>
          rw [givesBack_deleteLine hl, DeleteReq.leadsBack_iff hl, href]
          simp
      | @lost d hl ref href hi =>
          rw [givesBack_deleteLine hl, DeleteReq.leadsBack_iff hl, href]
          refine exists_congr fun item => and_congr_right fun hitem => ?_
          have hne : ref ≠ d.ref := by
            rintro rfl
            rw [hi] at hitem
            cases hitem
          simp [hne, hi]
      | restocked hl href hi hu =>
          rw [givesBack_restocked hl hi hu, DeleteReq.leadsBack_iff hl, href]
          simp [hi]

/-! ## A shop with two cameras of one name

The runs written down here play in the shop of one kind of camera, to which
another one of the same name has been added in a category of its own. -/

def videoCamera : ItemRef := ⟨"video", "cam"⟩

/-- `n` cameras of the one kind, `m` of the other, and a line of ann's with
one of the first kind. -/
def namesakes (n m : ℤ) : Store ℤ :=
  { (cameras n).setLine "ann" "l" (cameraLine 1) with
    items := Function.update (cameras n).items videoCamera
      (some ⟨some "Camera", m, []⟩) }

/-- With one line of that name, an add of the item the line records lands on
the line. -/
theorem add_lands_cameras :
    ∃ z, RunAlone .all ((cameras (2 : ℤ)).setLine "ann" "l" (cameraLine 1),
        .add (.getItem (.of camera "ann" 1))) z ∧
      Lands ((cameras 2).setLine "ann" "l" (cameraLine 1)) z.1 camera "ann"
        1 := by
  obtain ⟨z, hrun, hfin, herr⟩ : ∃ z,
      RunAlone .all ((cameras (2 : ℤ)).setLine "ann" "l" (cameraLine 1),
        .add (.getItem (.of camera "ann" 1))) z ∧
      z.2.Finished ∧ z.2.error? = none :=
    exists_runAlone ["", "", "", ""] (by decide +kernel)
  have hname : ((cameras (2 : ℤ)).setLine "ann" "l" (cameraLine 1)).NameIsItem
      "ann" camera :=
    ⟨"Camera", ⟨_, rfl, rfl⟩, Or.inl ⟨"l", cameraLine 1, rfl, rfl⟩⟩
  exact ⟨z, hrun, (add_lands_iff camera_proper (by decide) rfl hrun hfin
    herr).mpr hname⟩

/-- Ann adds the other camera. Her line of the first one grows. -/
theorem add_lands_on_namesake :
    ∃ z, RunAlone .all (namesakes 2 2,
        .add (.getItem (.of videoCamera "ann" 1))) z ∧
      z.2.Finished ∧ z.2.error? = none ∧
      (z.1.line "ann" "l").map (fun d => (d.ref, d.count)) =
        some (camera, 2) ∧
      ¬ Lands (namesakes 2 2) z.1 videoCamera "ann" 1 := by
  obtain ⟨z, hrun, hfin, herr, hline⟩ : ∃ z, RunAlone .all (namesakes 2 2,
        .add (.getItem (.of videoCamera "ann" 1))) z ∧
      z.2.Finished ∧ z.2.error? = none ∧
      (z.1.line "ann" "l").map (fun d => (d.ref, d.count)) =
        some (camera, 2) :=
    exists_runAlone ["", "", "", ""] (by decide +kernel)
  refine ⟨z, hrun, hfin, herr, hline, fun h => ?_⟩
  obtain ⟨d, hd, hpair⟩ := Option.map_eq_some_iff.mp hline
  obtain ⟨href, hcount⟩ := Prod.mk.inj hpair
  have hold : (namesakes 2 2).line "ann" "l" = some (cameraLine 1) := rfl
  obtain ⟨l, hown, hframe, -⟩ := h
  by_cases hl : l = "l"
  · subst hl
    obtain ⟨d', hd', href', -⟩ | ⟨-, hnone, -⟩ := hown
    · rw [hold] at hd'
      rw [← Option.some.inj hd'] at href'
      exact absurd href' (by decide)
    · rw [hold] at hnone
      cases hnone
  · have hsame := hframe "ann" "l" fun heq => hl heq.2.symm
    rw [hd, hold] at hsame
    rw [Option.some.inj hsame] at hcount
    exact absurd hcount (by decide)

/-- Ann's line of the first camera is removed with the arguments of the first
camera. -/
theorem delete_gives_back_cameras :
    ∃ z, RunAlone .all (namesakes 2 2,
        .delete (.getLine (.of camera "ann" "l"))) z ∧
      GivesBack (namesakes 2 2) z.1 "ann" := by
  obtain ⟨z, hrun, hfin⟩ : ∃ z, RunAlone .all (namesakes 2 2,
        .delete (.getLine (.of camera "ann" "l"))) z ∧ z.2.Finished :=
    exists_runAlone ["", "", "", ""] (by decide +kernel)
  have hcall : deleteItemFromBasket
      (some ⟨.str "l", .str "photo", .str "cam"⟩) (some "ann") =
      .returned .undefined (Call.delete (V := ℤ)
        (.getLine (.of camera "ann" "l"))) := rfl
  refine ⟨z, hrun, (delete_gives_back_iff hcall hrun hfin).mpr ?_⟩
  intro itemID hid d hd
  obtain rfl : "l" = itemID := Option.some.inj hid
  have hold : (namesakes 2 2).line "ann" "l" = some (cameraLine 1) := rfl
  rw [hold] at hd
  rw [← Option.some.inj hd]
  exact ⟨⟨some "Camera", 2, []⟩, rfl, Or.inl rfl⟩

/-- Ann's line of the first camera is removed with the arguments of the other
one, whose stock is raised. -/
theorem delete_gives_to_namesake :
    ∃ z, deleteItemFromBasket
          (some ⟨.str "l", .str "video", .str "cam"⟩) (some "ann") =
          .returned .undefined (Call.delete (V := ℤ)
            (.getLine (.of videoCamera "ann" "l"))) ∧
      RunAlone .all (namesakes 2 2,
        .delete (.getLine (.of videoCamera "ann" "l"))) z ∧
      z.2.Finished ∧ z.1.stock camera = 2 ∧ z.1.stock videoCamera = 3 ∧
      ¬ GivesBack (namesakes 2 2) z.1 "ann" := by
  obtain ⟨z, hrun, hfin, hcam, hvideo, hgone⟩ : ∃ z,
      RunAlone .all (namesakes 2 2,
        .delete (.getLine (.of videoCamera "ann" "l"))) z ∧
      z.2.Finished ∧ z.1.stock camera = 2 ∧ z.1.stock videoCamera = 3 ∧
      (z.1.line "ann" "l").isNone :=
    exists_runAlone ["", "", "", ""] (by decide +kernel)
  refine ⟨z, rfl, hrun, hfin, hcam, hvideo, fun h => ?_⟩
  have hold : (namesakes 2 2).line "ann" "l" = some (cameraLine 1) := rfl
  obtain ⟨item, hi, hu⟩ := h.restock hold (Option.isNone_iff_eq_none.mp hgone)
  have hstock := Store.stock_updateItem hu videoCamera
  rw [hvideo, if_neg (by decide)] at hstock
  exact absurd hstock (by decide)

end PhoRent
