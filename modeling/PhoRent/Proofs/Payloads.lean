import PhoRent.Functions.Alone
import PhoRent.Functions.Play
import PhoRent.Store.Units

/-!
# Counts under arbitrary payloads

The count a client sends is compared, subtracted, added and stored as it
comes. The comparison with the stock is the only check, and it lets through
whatever converts to a number that is not too large: negative numbers, and
strings of digits, which a line then stores or joins to the count it has.
Sums are rounded to doubles, and a large enough one becomes infinite. Calls run
one after the other here; a store whose counts are in order keeps them so as
long as each accepted count is one the writes turn into a count.
-/

namespace PhoRent

open Js

/-- The value is the number `n`. -/
def IsInt (v : Value) (n : ℤ) : Prop := ∃ x : Number, v = .num x ∧ x.IsInt n

/-- A count in order: an integer, and at least `least`. -/
def IsCount (least : ℤ) (v : Value) : Prop := ∃ n : ℤ, least ≤ n ∧ IsInt v n

/-- Every stock count is a non-negative integer, and every count of a basket
line a positive one. -/
structure CountsSound (s : Store Value) : Prop where
  stock : ∀ ref item, s.items ref = some item → IsCount 0 item.count
  line : ∀ uid l d, s.line uid l = some d → IsCount 1 d.count

/-- Calls one after the other, on a store: between two calls, or during one. A
call may only be started where `ok` allows it. -/
inductive InTurn (ok : Store Value → Call Value → Prop) (s₀ : Store Value) :
    Store Value → Option (Call Value) → Prop
  | init : InTurn ok s₀ s₀ none
  | add {s : Store Value} (h : InTurn ok s₀ s none) (payload : Value)
      (uid : String) {v : Returned} {call : Call Value}
      (hcall : addItemInBasket (AddData.ofPayload payload) (some uid) =
        .returned v call) (hok : ok s call) : InTurn ok s₀ s (some call)
  | delete {s : Store Value} (h : InTurn ok s₀ s none) (payload : Value)
      (uid : String) {v : Returned} {call : Call Value}
      (hcall : deleteItemFromBasket (DeleteData.ofPayload payload) (some uid) =
        .returned v call) (hok : ok s call) : InTurn ok s₀ s (some call)
  | step {s : Store Value} {k : Call Value} (h : InTurn ok s₀ s (some k))
      (t : Turn) (hfresh : t.Fresh s) :
      InTurn ok s₀ (k.step t s).1 (some (k.step t s).2)
  | finish {s : Store Value} {k : Call Value} (h : InTurn ok s₀ s (some k))
      (hfin : k.Finished) : InTurn ok s₀ s none

/-! ## Which counts do no harm -/

/-- The number is rounded to a double, and not to an infinity. -/
def InRange (n : ℤ) : Prop := |(n : ℚ)| < Binary.double.overflow

/-- The count makes sound counts of the lines it meets: where the caller has
no line of the name it is a positive integer itself, and elsewhere it is added
as the number `z` and leaves every line with a unit. -/
def AddReq.LinesSound (req : AddReq Value) (s : Store Value)
    (item : ItemDoc Value) (z : ℤ) : Prop :=
  ∀ uid name, req.uid = some uid → item.name = some name →
    (s.linesNamed uid name = [] → storable req.elementCount = true →
      IsCount 1 req.elementCount) ∧
    (s.linesNamed uid name ≠ [] → ∀ t, req.elementCount.toPrimitive ≠ .str t) ∧
    ∀ e ∈ s.linesNamed uid name, ∀ c : ℤ, IsInt e.2.count c →
      1 ≤ c + z ∧ InRange (c + z)

/-- If the check lets the count through, it converts to an integer that can be
taken from the stock and makes sound counts of the lines. -/
def AddReq.Harmless (req : AddReq Value) (s : Store Value) : Prop :=
  ∀ item, s.items req.ref = some item →
    Value.ge item.count req.elementCount = true →
    ∃ z : ℤ, req.elementCount.toNumber.IsInt z ∧
      (∀ n, IsInt item.count n → InRange (n - z)) ∧ req.LinesSound s item z

def Store.HasRoom (s : Store Value) (ref : ItemRef) (v : Value) : Prop :=
  ∀ item, s.items ref = some item →
    ∀ n m, IsInt item.count n → IsInt v m → InRange (n + m)

/-- The stock the removal goes to has room for the units of the line. -/
def DeleteReq.Harmless (req : DeleteReq) (s : Store Value) : Prop :=
  ∀ d, s.line req.uid req.itemID = some d →
    ∀ ref, req.ref? = some ref → s.HasRoom ref d.count

def Call.Harmless (s : Store Value) : Call Value → Prop
  | .add (.getItem req) => req.Harmless s
  | .delete (.getLine req) => req.Harmless s
  | _ => True

section Steps

variable {s s' : Store Value} {req : AddReq Value} {item : ItemDoc Value}
  {v : Value} {n z : ℤ}

theorem isInt_ofInt (h : |n| < 2 ^ 53) : IsInt (.ofInt n) n :=
  ⟨_, rfl, Number.isInt_ofRat h⟩

theorem IsInt.eq {m : ℤ} (hn : IsInt v n) (hm : IsInt v m) : n = m := by
  obtain ⟨x, rfl, hx⟩ := hn
  obtain ⟨x', he, hx'⟩ := hm
  obtain rfl := Value.num.inj he
  exact hx.eq hx'

theorem isCount_ofRat (h : InRange n) :
    (0 ≤ n → IsCount 0 (.num (.ofRat n))) ∧
      (1 ≤ n → IsCount 1 (.num (.ofRat n))) := by
  obtain ⟨k, hk, hk0, hk1⟩ := Number.exists_isInt_ofRat h
  exact ⟨fun hn => ⟨k, hk0 hn, _, rfl, hk⟩, fun hn => ⟨k, hk1 hn, _, rfl, hk⟩⟩

theorem isCount_sub (hv : IsCount 0 v) {w : Value}
    (hz : w.toNumber.IsInt z) (hroom : ∀ n, IsInt v n → InRange (n - z))
    (hge : Value.ge v w = true) : IsCount 0 (Value.sub v w) := by
  obtain ⟨n, -, hn⟩ := hv
  have hrange := hroom n hn
  obtain ⟨x, rfl, hx⟩ := hn
  rw [Value.num_ge, hx.ge hz, decide_eq_true_eq] at hge
  rw [Value.sub, Value.toNumber_num, hx.sub hz]
  exact (isCount_ofRat hrange).1 (by omega)

theorem isCount_add {w : Value} (hv : IsInt v n) (hz : w.toNumber.IsInt z)
    (hw : ∀ t, w.toPrimitive ≠ .str t) (hle : 1 ≤ n + z)
    (hrange : InRange (n + z)) : IsCount 1 (Value.add v w) := by
  obtain ⟨x, rfl, hx⟩ := hv
  rw [Value.num_add _ hw, hx.add hz]
  exact (isCount_ofRat hrange).2 hle

theorem isCount_restock {ref : ItemRef} (hitem : IsCount 0 item.count)
    (hv : IsCount 1 v) (hi : s.items ref = some item)
    (hroom : s.HasRoom ref v) : IsCount 0 (Value.add item.count v) := by
  obtain ⟨n, hn, hni⟩ := hitem
  obtain ⟨m, hm, hmi⟩ := hv
  have hrange := hroom item hi n m hni hmi
  obtain ⟨x, hx, hxn⟩ := hni
  obtain ⟨y, rfl, hym⟩ := hmi
  rw [hx, Value.add_num, hxn.add hym]
  exact (isCount_ofRat hrange).1 (by omega)

/-- Where a call can stand on a sound store. -/
def Call.Sound (s : Store Value) : Call Value → Prop
  | .add (.getItem req) => req.Harmless s
  | .add (.updateStock req item n) => IsCount 0 n ∧
      ∃ z : ℤ, req.elementCount.toNumber.IsInt z ∧ req.LinesSound s item z
  | .add (.queryBasket req item uid name) => req.uid = some uid ∧
      item.name = some name ∧
      ∃ z : ℤ, req.elementCount.toNumber.IsInt z ∧ req.LinesSound s item z
  | .add (.setLine _ _ d) => IsCount 1 d.count
  | .add (.updateLines _ _ pending _) => ∀ e ∈ pending, IsCount 1 e.2
  | .delete (.getLine req) => req.Harmless s
  | .delete (.deleteLine req n) => IsCount 1 n ∧
      ∀ ref, req.ref? = some ref → s.HasRoom ref n
  | .delete (.getItem _ n ref) => IsCount 1 n ∧ s.HasRoom ref n
  | .delete (.updateStock _ _ _ m) => IsCount 0 m
  | _ => True

theorem countsSound_iff :
    CountsSound s ↔ s.Counts (IsCount 0) (IsCount 1) :=
  ⟨fun h => ⟨h.stock, h.line⟩, fun h => ⟨h.stock, h.line⟩⟩

theorem CountsSound.updateItem {ref : ItemRef} (hs : CountsSound s)
    (hv : IsCount 0 v) (hu : s.updateItem ref v = some s') : CountsSound s' :=
  countsSound_iff.mpr ((countsSound_iff.mp hs).updateItem hv hu)

theorem CountsSound.setLine {uid l : String} {d : LineDoc Value}
    (hs : CountsSound s) (hd : IsCount 1 d.count) :
    CountsSound (s.setLine uid l d) :=
  countsSound_iff.mpr ((countsSound_iff.mp hs).setLine hd)

theorem CountsSound.deleteLine (hs : CountsSound s) (uid l : String) :
    CountsSound (s.deleteLine uid l) :=
  countsSound_iff.mpr ((countsSound_iff.mp hs).deleteLine uid l)

theorem sound_onBasket {uid name : String} (hs : CountsSound s)
    (huid : req.uid = some uid) (hname : item.name = some name)
    (hz : req.elementCount.toNumber.IsInt z)
    (hl : req.LinesSound s item z) :
    Call.Sound s (.add (AddCall.onBasket req item uid
      (s.linesNamed uid name))) := by
  obtain ⟨hnew, hprim, hadd⟩ := hl uid name huid hname
  cases hdocs : s.linesNamed uid name with
  | nil =>
      simp only [AddCall.onBasket]
      split
      · next hst => exact hnew hdocs hst
      · trivial
  | cons e rest =>
      simp only [AddCall.onBasket]
      rw [← hdocs]
      intro e' he'
      obtain ⟨e, he, rfl⟩ := List.mem_map.mp he'
      obtain ⟨c, -, hc⟩ := hs.line _ _ _ (Store.mem_linesNamed.mp he).1
      obtain ⟨hle, hrange⟩ := hadd e he c hc
      exact isCount_add hc hz (hprim (by simp [hdocs])) hle hrange

/-- What an operation carried out keeps. -/
theorem Call.Sound.acts {k k' : Call Value} (hs : CountsSound s)
    (hk : k.Sound s) (ha : Call.Acts s k s' k') :
    CountsSound s' ∧ k'.Sound s' := by
  cases ha with
  | add ha =>
      cases ha with
      | getItem req =>
          refine ⟨hs, ?_⟩
          cases hi : s.items req.ref with
          | none => trivial
          | some item =>
              simp only [AddCall.onItem]
              split
              · next hge =>
                  obtain ⟨z, hz, hroom, hl⟩ := hk item hi hge
                  exact ⟨isCount_sub (hs.stock _ _ hi) hz hroom hge, z, hz, hl⟩
              · trivial
      | updateStock req item n hu =>
          obtain ⟨hn, z, hz, hl⟩ := hk
          refine ⟨hs.updateItem hn hu, ?_⟩
          rcases huid : req.uid with _ | uid
          · simp [AddCall.onStockUpdated, huid, Call.Sound]
          rcases hname : item.name with _ | name
          · simp [AddCall.onStockUpdated, huid, hname, Call.Sound]
          simp only [AddCall.onStockUpdated, huid, hname]
          refine ⟨huid, hname, z, hz, ?_⟩
          simpa only [AddReq.LinesSound, Store.updateItem_linesNamed hu]
            using hl
      | queryBasket req item uid name =>
          obtain ⟨huid, hname, z, hz, hl⟩ := hk
          exact ⟨hs, sound_onBasket hs huid hname hz hl⟩
      | setLine req uid d autoId hfresh => exact ⟨hs.setLine hk, trivial⟩
      | updateLine req uid pending err k hget hu =>
          obtain ⟨d, -, rfl⟩ := Store.updateLine_eq_some.mp hu
          have hrest : ∀ e ∈ pending.eraseIdx k, IsCount 1 e.2 :=
            fun e he => hk e (List.mem_of_mem_eraseIdx he)
          refine ⟨hs.setLine (hk _ (List.mem_of_getElem? hget)), ?_⟩
          exact AddCall.settle_ind (fun c => Call.Sound _ (.add c)) trivial
            (fun _ => trivial) hrest
  | delete ha =>
      cases ha with
      | getLine req =>
          refine ⟨hs, ?_⟩
          cases hd : s.line req.uid req.itemID with
          | none => trivial
          | some d => exact ⟨hs.line _ _ _ hd, hk d hd⟩
      | deleteLine req n =>
          obtain ⟨hn, hroom⟩ := hk
          refine ⟨hs.deleteLine _ _, ?_⟩
          rw [DeleteCall.onDeleted]
          split
          · trivial
          · next ref href => exact ⟨hn, hroom ref href⟩
      | getItem req n ref =>
          obtain ⟨hn, hroom⟩ := hk
          refine ⟨hs, ?_⟩
          cases hi : s.items ref with
          | none => trivial
          | some item => exact isCount_restock (hs.stock _ _ hi) hn hi hroom
      | updateStock req n ref m hu => exact ⟨hs.updateItem hk hu, trivial⟩

theorem Call.Sound.fails {k k' : Call Value} (hk : k.Sound s)
    (ha : Call.Fails s k k') : k'.Sound s := by
  cases ha with
  | add ha =>
      cases ha with
      | getItem | updateStock | queryBasket | setLine => trivial
      | updateLine req uid pending err k hget =>
          exact AddCall.settle_ind (fun c => Call.Sound s (.add c)) trivial
            (fun _ => trivial)
            fun e he => hk e (List.mem_of_mem_eraseIdx he)
  | delete ha => cases ha <;> trivial

theorem Call.Sound.step {k k' : Call Value} (hk : k.Sound s)
    (hs : CountsSound s) {t : Turn} (hfresh : t.Fresh s)
    (h : k.step t s = (s', k')) : CountsSound s' ∧ k'.Sound s' :=
  Call.Answered.ind (P := fun s k => CountsSound s ∧ k.Sound s) ⟨t, hfresh, h⟩
    ⟨hs, hk⟩ (fun _ _ ha => hk.acts hs ha) fun _ hf => ⟨hs, hk.fails hf⟩

end Steps

/-- Where no call does harm, all counts stay in order, between the calls and
during them. -/
theorem counts_stay_sound {s₀ s : Store Value} {k : Option (Call Value)}
    (h₀ : CountsSound s₀) (h : InTurn Call.Harmless s₀ s k) :
    CountsSound s := by
  have hboth : CountsSound s ∧ ∀ c, k = some c → c.Sound s := by
    induction h with
    | init => exact ⟨h₀, fun c hc => by cases hc⟩
    | add _ payload uid hcall hok ih =>
        refine ⟨ih.1, fun c hc => ?_⟩
        obtain rfl := Option.some.inj hc
        obtain ⟨req, rfl⟩ := addItemInBasket_starts hcall
        exact hok
    | delete _ payload uid hcall hok ih =>
        refine ⟨ih.1, fun c hc => ?_⟩
        obtain rfl := Option.some.inj hc
        obtain ⟨req, rfl⟩ := deleteItemFromBasket_starts hcall
        exact hok
    | @step s k _ t hfresh ih =>
        obtain ⟨hs, hk⟩ := ih
        obtain ⟨hs', hk'⟩ := (hk k rfl).step hs hfresh rfl
        exact ⟨hs', fun c hc => Option.some.inj hc ▸ hk'⟩
    | finish _ _ ih => exact ⟨ih.1, fun c hc => by cases hc⟩
  exact hboth.1

def cameraPayload (count : Value) : Value :=
  .obj [("id", .str "cam"), ("category", .str "photo"), ("count", count)]

def cameraReq (count : Value) : AddReq Value :=
  ⟨"cam", "photo", camera, count, some "ann"⟩

theorem cameras_sound {n : ℤ} (hn : 0 ≤ n) (hlt : |n| < 2 ^ 53) :
    CountsSound (cameras (.ofInt n)) := by
  refine ⟨fun ref item hi => ?_, fun uid l d hd => by cases hd⟩
  simp only [cameras] at hi
  split at hi
  · rw [← Option.some.inj hi]
    exact ⟨n, hn, isInt_ofInt hlt⟩
  · cases hi

theorem addItemInBasket_cameras (count : Value) :
    addItemInBasket (AddData.ofPayload (cameraPayload count)) (some "ann") =
      .returned .undefined (.add (.getItem (cameraReq count))) := by
  have hp : AddData.ofPayload (cameraPayload count) =
      some ⟨.str "cam", .str "photo", count⟩ := rfl
  have hc : docPath (.str "photo") = some "photo" := by decide +kernel
  have hi : docPath (.str "cam") = some "cam" := by decide +kernel
  simp only [hp, addItemInBasket, hc, hi, Value.toStr]
  rfl

/-- A first add of `z` cameras where the check lets them through. -/
theorem inTurn_cameras (ok : Store Value → Call Value → Prop) {n z : ℤ}
    (hz : z ≤ n) (hn : |n| < 2 ^ 53) (hz' : |z| < 2 ^ 53)
    (hok : ok (cameras (.ofInt n)) (.add (.getItem (cameraReq (.ofInt z))))) :
    ∃ s, InTurn ok (cameras (.ofInt n)) s none ∧
      s.line "ann" "a" = some (cameraLine (.ofInt z)) := by
  let t : Turn := ⟨true, "a", 0⟩
  let item : ItemDoc Value := ⟨some "Camera", .ofInt n, []⟩
  have hi : (cameras (Value.ofInt n)).items camera = some item := rfl
  obtain ⟨s₁, hs₁⟩ : ∃ s₁, (cameras (Value.ofInt n)).updateItem camera
      (.ofInt (n - z)) = some s₁ := ⟨_, rfl⟩
  have hempty : ∀ uid l, s₁.line uid l = none := fun uid l =>
    Store.updateItem_line hs₁ uid l
  have hquery : s₁.linesNamed "ann" "Camera" = [] :=
    Store.linesNamed_eq_nil.mpr fun l d hd => by
      rw [hempty] at hd; cases hd
  have e1 : Call.step t (cameras (.ofInt n))
      (.add (.getItem (cameraReq (.ofInt z)))) =
      (cameras (.ofInt n), .add (.updateStock (cameraReq (.ofInt z)) item
        (.ofInt (n - z)))) := by
    simp [Call.step, AddCall.step, AddCall.onItem, cameraReq, t, hi, item,
      Count.ge_ofInt hn hz', Count.sub_ofInt hn hz', hz]
  have e2 : Call.step t (cameras (.ofInt n))
      (.add (.updateStock (cameraReq (.ofInt z)) item (.ofInt (n - z)))) =
      (s₁, .add (.queryBasket (cameraReq (.ofInt z)) item "ann" "Camera")) := by
    simp [Call.step, AddCall.step, cameraReq, t, hs₁, AddCall.onStockUpdated,
      item]
  have e3 : Call.step t s₁
      (.add (.queryBasket (cameraReq (.ofInt z)) item "ann" "Camera")) =
      (s₁, .add (.setLine (cameraReq (.ofInt z)) "ann"
        (cameraLine (.ofInt z)))) := by
    simp only [Call.step, AddCall.step, t, if_true, hquery, AddCall.onBasket]
    rfl
  have e4 : Call.step t s₁ (.add (.setLine (cameraReq (.ofInt z)) "ann"
      (cameraLine (.ofInt z)))) =
      (s₁.setLine "ann" "a" (cameraLine (.ofInt z)),
        .add (.done (cameraReq (.ofInt z)))) := rfl
  have h0 : InTurn ok (cameras (.ofInt n)) (cameras (.ofInt n))
      (some (.add (.getItem (cameraReq (.ofInt z))))) :=
    .add .init (cameraPayload (.ofInt z)) "ann"
      (addItemInBasket_cameras (.ofInt z)) hok
  have h1 := h0.step t fun _ => rfl
  rw [e1] at h1
  have h2 := h1.step t fun _ => rfl
  rw [e2] at h2
  have h3 := h2.step t fun uid => hempty uid "a"
  rw [e3] at h3
  have h4 := h3.step t fun uid => hempty uid "a"
  rw [e4] at h4
  exact ⟨_, h4.finish trivial, by simp [Store.line_setLine]⟩

/-- Two cameras are added where there are five. -/
theorem counts_stay_sound_cameras :
    ∃ s, InTurn Call.Harmless (cameras (.ofInt 5)) s none ∧
      s.line "ann" "a" = some (cameraLine (.ofInt 2)) ∧ CountsSound s := by
  have hfive : IsInt (.ofInt 5) 5 := isInt_ofInt (by decide)
  have htwo : (Value.ofInt 2).toNumber.IsInt 2 :=
    Number.isInt_ofRat (n := 2) (by decide)
  have hok : Call.Harmless (cameras (.ofInt 5))
      (.add (.getItem (cameraReq (.ofInt 2)))) := by
    intro item hi _
    refine ⟨2, htwo, fun n hn => ?_, fun uid name _ _ =>
      ⟨fun _ _ => ⟨2, by decide, _, rfl, htwo⟩, fun _ t ht => (by cases ht),
        fun e he => (by cases he)⟩⟩
    obtain rfl := Option.some.inj hi
    rw [← hfive.eq hn]
    exact (Binary.Format.finite_intCast (by decide)).abs_lt_overflow
  obtain ⟨s, h, hline⟩ := inTurn_cameras Call.Harmless (by decide) (by decide)
    (by decide) hok
  exact ⟨s, h, hline,
    counts_stay_sound (cameras_sound (by decide) (by decide)) h⟩

/-- Minus one camera is added: the stock grows, and there is a line with minus
one camera. -/
theorem negative_line :
    CountsSound (cameras (.ofInt 5)) ∧
      ∃ s, InTurn (fun _ _ => True) (cameras (.ofInt 5)) s none ∧
        s.line "ann" "a" = some (cameraLine (.ofInt (-1))) ∧
        ¬ CountsSound s := by
  refine ⟨cameras_sound (by decide) (by decide), ?_⟩
  obtain ⟨s, h, hl⟩ := inTurn_cameras (fun _ _ => True) (n := 5) (z := -1)
    (by decide) (by decide) (by decide) trivial
  refine ⟨s, h, hl, fun hs => ?_⟩
  obtain ⟨m, hm, he⟩ := hs.line _ _ _ hl
  have hneg : -1 = m := (isInt_ofInt (by decide)).eq he
  omega

end PhoRent
