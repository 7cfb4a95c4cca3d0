import PhoRent.Store.Docs

/-!
# `addItemInBasket`

The function is a chain of promises, and the model follows the chain. A call
that is under way is suspended on the operation it has asked for, with the
locals its next callback has captured; the constructors of `AddCall` are these
suspensions. The callbacks are functions of their own, from the answer of one
operation to the next suspension, and `AddCall.step` carries out the operation
in flight and runs the callback.

The updates of an existing basket line are the one place with more than one
operation in flight: `forEach` asks for all of them before any is answered.
`Turn.pick` says which is answered next.
-/

namespace PhoRent

inductive Op
  | getItem
  | updateStock
  | queryBasket
  | setLine
  | updateLine
  | getLine
  | deleteLine
  deriving DecidableEq, Repr

/-- What a callback throws, or a promise rejects with. -/
inductive JsError
  -- a property of `undefined` or `null` is read
  | typeError (property : String)
  -- `doc()` does not take the argument for a document
  | documentPath
  -- `where()` does not take `undefined`
  | queryValue
  -- `set()` does not take a value of the document
  | fieldValue
  -- `functions.https.HttpsError`
  | https (code message : String)
  | rejected (op : Op)
  deriving DecidableEq, Repr

/-- How the backend answers the operation in flight: whether it carries it
out, the id it draws for a document created by it, and which one it answers
where several are in flight. -/
structure Turn where
  ok : Bool
  autoId : String
  pick : ℕ
  deriving Repr

def Turn.Fresh {V : Type} (t : Turn) (s : Store V) : Prop :=
  ∀ uid, s.line uid t.autoId = none

/-- The document id `doc()` takes an argument for. The argument is a path,
relative to the collection: no id for a value that is not a string, for the
empty string, for an empty component inside, and for a path that ends at a
collection. -/
def docPath : Js.Value → Option String
  | .str s =>
      let parts := (s.toList.splitOn '/').filter (· ≠ [])
      if s = "" ∨ (s.toList.zip s.toList.tail).any (· = ('/', '/')) ∨
          parts.length % 2 = 0 then none
      else some (String.ofList (['/'].intercalate parts))
  | _ => none

def DocID (id : String) : Prop := id ≠ "" ∧ '/' ∉ id.toList

instance (id : String) : Decidable (DocID id) :=
  inferInstanceAs (Decidable (_ ∧ _))

theorem docPath_str {id : String} (h : DocID id) :
    docPath (.str id) = some id := by
  obtain ⟨hne, hslash⟩ := h
  have hsplit : id.toList.splitOn '/' = [id.toList] :=
    List.splitOn_eq_singleton hslash
  have hpairs :
      ¬ (id.toList.zip id.toList.tail).any (· = ('/', '/')) = true := by
    rw [List.any_eq_true]
    intro hex
    obtain ⟨p, hp, heq⟩ := hex
    obtain rfl := of_decide_eq_true heq
    exact hslash (List.of_mem_zip hp).1
  have hl : id.toList ≠ [] := by simpa using hne
  simp only [docPath, hsplit]
  simp [hne, hpairs, hl]

structure AddData (V : Type) where
  id : Js.Value
  category : Js.Value
  count : V

/-- What the handler's callbacks close over: `itemID`, `categoryID`,
`elementCount`, and the caller as `context.auth` has it. The two ids are what
the client sent, and `ref` is the document `doc()` makes of them. -/
structure AddReq (V : Type) where
  itemID : String
  categoryID : String
  ref : ItemRef
  elementCount : V
  uid : Option String

inductive AddCall (V : Type)
  | getItem (req : AddReq V)
  | updateStock (req : AddReq V) (item : ItemDoc V) (newElementCount : V)
  | queryBasket (req : AddReq V) (item : ItemDoc V) (uid name : String)
  | setLine (req : AddReq V) (uid : String) (item : LineDoc V)
  -- the updates in flight, and the last error of those answered
  | updateLines (req : AddReq V) (uid : String) (pending : List (String × V))
      (err : Option JsError)
  | done (req : AddReq V)
  | failed (req : AddReq V) (e : JsError)

namespace AddCall

variable {V : Type} [Count V]

def refusal (name : Option String) : String :=
  "Невозможно добавить " ++ name.getD "undefined" ++
    " в заказ. \n    Попробуйте попытку позднее."

/-- `snapshot => …` of the stock document. -/
def onItem (req : AddReq V) : Option (ItemDoc V) → AddCall V
  | none => .failed req (.typeError "count")
  | some item =>
      if Count.ge item.count req.elementCount then
        .updateStock req item (Count.sub item.count req.elementCount)
      else .failed req (.https "invalid-argument" (refusal item.name))

/-- `() => …` of the stock update. Only here is the caller looked at. -/
def onStockUpdated (req : AddReq V) (item : ItemDoc V) : AddCall V :=
  match req.uid with
  | none => .failed req (.typeError "uid")
  | some uid =>
      match item.name with
      | none => .failed req .queryValue
      | some name => .queryBasket req item uid name

/-- The document a new line gets: the item's, with three fields set. -/
def newLine (req : AddReq V) (item : ItemDoc V) : LineDoc V :=
  { item with
    count := req.elementCount
    itemID := req.itemID
    categoryID := req.categoryID }

/-- `snapshotQuery => …` of the basket query. -/
def onBasket (req : AddReq V) (item : ItemDoc V) (uid : String) :
    List (String × LineDoc V) → AddCall V
  | [] =>
      if Count.storable req.elementCount then
        .setLine req uid (newLine req item)
      else .failed req .fieldValue
  | docs =>
      .updateLines req uid
        (docs.map fun e => (e.1, Count.add e.2.count req.elementCount)) none

/-- What is left once an update of a line has been answered. -/
def settle (req : AddReq V) (uid : String) (pending : List (String × V)) :
    Option JsError → AddCall V
  | none => if pending = [] then .done req
      else .updateLines req uid pending none
  | some e => if pending = [] then .failed req e
      else .updateLines req uid pending (some e)

omit [Count V] in
theorem settle_ne_nil (req : AddReq V) (uid : String)
    {pending : List (String × V)} (h : pending ≠ []) (err : Option JsError) :
    settle req uid pending err = .updateLines req uid pending err := by
  cases err <;> simp only [settle, h, if_false]

omit [Count V] in
/-- A call that has had an update answered is through, or waits for the rest. -/
theorem settle_ind (P : AddCall V → Prop) {req : AddReq V} {uid : String}
    {pending : List (String × V)} {err : Option JsError} (hdone : P (.done req))
    (hfailed : ∀ e, P (.failed req e))
    (hrest : P (.updateLines req uid pending err)) :
    P (settle req uid pending err) := by
  by_cases hnil : pending = []
  · cases err with
    | none =>
        rw [settle, if_pos hnil]
        exact hdone
    | some e =>
        rw [settle, if_pos hnil]
        exact hfailed e
  · rw [settle_ne_nil req uid hnil]
    exact hrest

/-- The operation in flight is answered, and its callback runs. `doc()` draws
the id of a new line before `set` is sent; nothing sees it earlier than the
document, so it is drawn with the answer here. -/
def step (t : Turn) (s : Store V) : AddCall V → Store V × AddCall V
  | .getItem req =>
      if t.ok then (s, onItem req (s.items req.ref))
      else (s, .failed req (.rejected .getItem))
  | .updateStock req item n =>
      match if t.ok then s.updateItem req.ref n else none with
      | some s' => (s', onStockUpdated req item)
      | none => (s, .failed req (.rejected .updateStock))
  | .queryBasket req item uid name =>
      if t.ok then (s, onBasket req item uid (s.linesNamed uid name))
      else (s, .failed req (.rejected .queryBasket))
  | .setLine req uid d =>
      if t.ok then (s.setLine uid t.autoId d, .done req)
      else (s, .failed req (.rejected .setLine))
  | .updateLines req uid pending err =>
      match pending[t.pick]? with
      | none => (s, .updateLines req uid pending err)
      | some (docID, n) =>
          match if t.ok then s.updateLine uid docID n else none with
          | some s' => (s', settle req uid (pending.eraseIdx t.pick) err)
          | none =>
              (s, settle req uid (pending.eraseIdx t.pick)
                (some (.rejected .updateLine)))
  | .done req => (s, .done req)
  | .failed req e => (s, .failed req e)

def Finished : AddCall V → Prop
  | .done _ | .failed _ _ => True
  | _ => False

instance : DecidablePred (Finished (V := V))
  | .done _ | .failed _ _ => .isTrue trivial
  | .getItem _ | .updateStock _ _ _ | .queryBasket _ _ _ _ | .setLine _ _ _
  | .updateLines _ _ _ _ => .isFalse id

/-! ## What a step can do

The operations answered positively, one constructor each, and the refusals of
the backend. Everything proved about running calls goes through these cases
and never unfolds `step`. -/

/-- The operation in flight is carried out. -/
inductive Acts (s : Store V) : AddCall V → Store V → AddCall V → Prop
  | getItem (req : AddReq V) :
      Acts s (.getItem req) s (onItem req (s.items req.ref))
  | updateStock (req : AddReq V) (item : ItemDoc V) (n : V) {s' : Store V}
      (h : s.updateItem req.ref n = some s') :
      Acts s (.updateStock req item n) s' (onStockUpdated req item)
  | queryBasket (req : AddReq V) (item : ItemDoc V) (uid name : String) :
      Acts s (.queryBasket req item uid name) s
        (onBasket req item uid (s.linesNamed uid name))
  | setLine (req : AddReq V) (uid : String) (d : LineDoc V) (autoId : String)
      (hfresh : ∀ u, s.line u autoId = none) :
      Acts s (.setLine req uid d) (s.setLine uid autoId d) (.done req)
  | updateLine (req : AddReq V) (uid : String) (pending : List (String × V))
      (err : Option JsError) (k : ℕ) {docID : String} {n : V} {s' : Store V}
      (hk : pending[k]? = some (docID, n))
      (h : s.updateLine uid docID n = some s') :
      Acts s (.updateLines req uid pending err) s'
        (settle req uid (pending.eraseIdx k) err)

/-- The operation in flight is not carried out: the backend refuses it, or
the document it updates does not exist. -/
inductive Fails (s : Store V) : AddCall V → AddCall V → Prop
  | getItem (req : AddReq V) :
      Fails s (.getItem req) (.failed req (.rejected .getItem))
  | updateStock (req : AddReq V) (item : ItemDoc V) (n : V) :
      Fails s (.updateStock req item n) (.failed req (.rejected .updateStock))
  | queryBasket (req : AddReq V) (item : ItemDoc V) (uid name : String) :
      Fails s (.queryBasket req item uid name)
        (.failed req (.rejected .queryBasket))
  | setLine (req : AddReq V) (uid : String) (d : LineDoc V) :
      Fails s (.setLine req uid d) (.failed req (.rejected .setLine))
  | updateLine (req : AddReq V) (uid : String) (pending : List (String × V))
      (err : Option JsError) (k : ℕ) {docID : String} {n : V}
      (hk : pending[k]? = some (docID, n)) :
      Fails s (.updateLines req uid pending err)
        (settle req uid (pending.eraseIdx k) (some (.rejected .updateLine)))

/-- A step carries the operation out, or fails, or there is none to answer. -/
theorem step_cases {t : Turn} {s s' : Store V} {c c' : AddCall V}
    (hfresh : t.Fresh s) (h : step t s c = (s', c')) :
    Acts s c s' c' ∨ (s' = s ∧ Fails s c c') ∨ (s' = s ∧ c' = c) := by
  cases c with
  | getItem req =>
      rw [step] at h
      split at h <;> obtain ⟨rfl, rfl⟩ := Prod.mk.inj h
      · exact Or.inl (.getItem req)
      · exact Or.inr (Or.inl ⟨rfl, .getItem req⟩)
  | updateStock req item n =>
      rw [step] at h
      split at h
      · next s₁ hs =>
          obtain ⟨rfl, rfl⟩ := Prod.mk.inj h
          split at hs
          · exact Or.inl (.updateStock req item n hs)
          · cases hs
      · obtain ⟨rfl, rfl⟩ := Prod.mk.inj h
        exact Or.inr (Or.inl ⟨rfl, .updateStock req item n⟩)
  | queryBasket req item uid name =>
      rw [step] at h
      split at h <;> obtain ⟨rfl, rfl⟩ := Prod.mk.inj h
      · exact Or.inl (.queryBasket req item uid name)
      · exact Or.inr (Or.inl ⟨rfl, .queryBasket req item uid name⟩)
  | setLine req uid d =>
      rw [step] at h
      split at h <;> obtain ⟨rfl, rfl⟩ := Prod.mk.inj h
      · exact Or.inl (.setLine req uid d t.autoId hfresh)
      · exact Or.inr (Or.inl ⟨rfl, .setLine req uid d⟩)
  | updateLines req uid pending err =>
      rw [step] at h
      split at h
      · obtain ⟨rfl, rfl⟩ := Prod.mk.inj h
        exact Or.inr (Or.inr ⟨rfl, rfl⟩)
      · next docID n hk =>
          split at h
          · next s₁ hs =>
              obtain ⟨rfl, rfl⟩ := Prod.mk.inj h
              split at hs
              · exact Or.inl (.updateLine req uid pending err t.pick hk hs)
              · cases hs
          · obtain ⟨rfl, rfl⟩ := Prod.mk.inj h
            exact Or.inr (Or.inl ⟨rfl, .updateLine req uid pending err _ hk⟩)
  | done req =>
      obtain ⟨rfl, rfl⟩ := Prod.mk.inj h
      exact Or.inr (Or.inr ⟨rfl, rfl⟩)
  | failed req e =>
      obtain ⟨rfl, rfl⟩ := Prod.mk.inj h
      exact Or.inr (Or.inr ⟨rfl, rfl⟩)

end AddCall

end PhoRent
