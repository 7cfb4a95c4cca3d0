import Mathlib.Logic.Relation
import Mathlib.Tactic.Simps.Basic
import PhoRent.Functions.DeleteItem

/-!
# The callables

Both functions are registered with `functions.https.onCall`: a handler is run
on the client's data and the caller's context, and the client is answered with
what comes of it. The handler's synchronous part either throws or sends the
first operation off and returns. What it returns is `undefined`: the chain of
promises is never handed back.

A call is a chain of either function, started by its handler. Steps of calls
are the steps of `AddCall` and `DeleteCall`.
-/

namespace PhoRent

inductive Call (V : Type)
  | add (c : AddCall V)
  | delete (c : DeleteCall V)

/-- What a handler returns to `onCall`; the promise would be that of the
chain it has started. -/
inductive Returned
  | undefined
  | promise
  deriving DecidableEq, Repr

/-- How the synchronous part of a handler ends: with an error, or with a value
and the chain it has started. -/
inductive Handled (V : Type)
  | threw (e : JsError)
  | returned (value : Returned) (call : Call V)

section Handlers

variable {V : Type}

/-- `exports.addItemInBasket`. The argument is `none` for `null`. What `doc()`
takes is a string, so `toStr` changes nothing. -/
def addItemInBasket (data : Option (AddData V)) (auth : Option String) :
    Handled V :=
  match data with
  | none => .threw (.typeError "id")
  | some data =>
      match docPath data.category, docPath data.id with
      | some category, some id =>
          .returned .undefined (.add (.getItem
            ⟨data.id.toStr, data.category.toStr, ⟨category, id⟩, data.count,
              auth⟩))
      | _, _ => .threw .documentPath

def deleteItemFromBasket (data : Option DeleteData) (auth : Option String) :
    Handled V :=
  match data with
  | none => .threw (.typeError "itemID")
  | some data =>
      match auth with
      | none => .threw (.typeError "uid")
      | some uid =>
          match docPath data.itemID with
          | none => .threw .documentPath
          | some itemID =>
              .returned .undefined (.delete (.getLine
                ⟨uid, itemID, docPath data.categoryID, docPath data.dbItemID⟩))

theorem addItemInBasket_starts {data : Option (AddData V)}
    {auth : Option String} {v : Returned} {call : Call V}
    (h : addItemInBasket data auth = .returned v call) :
    ∃ req, call = .add (.getItem req) := by
  unfold addItemInBasket at h
  split at h
  · cases h
  · split at h
    · cases h
      exact ⟨_, rfl⟩
    · cases h

theorem deleteItemFromBasket_starts {data : Option DeleteData}
    {auth : Option String} {v : Returned} {call : Call V}
    (h : deleteItemFromBasket data auth = .returned v call) :
    ∃ req, call = .delete (.getLine req) := by
  unfold deleteItemFromBasket at h
  split at h
  · cases h
  · split at h
    · cases h
    · split at h
      · cases h
      · cases h
        exact ⟨_, rfl⟩

end Handlers

/-- The fields `addItemInBasket` reads of a JSON payload. -/
def AddData.ofPayload (v : Js.Value) : Option (AddData Js.Value) := do
  return ⟨← v.prop "id", ← v.prop "category", ← v.prop "count"⟩

def DeleteData.ofPayload (v : Js.Value) : Option DeleteData := do
  return ⟨← v.prop "itemID", ← v.prop "categoryID", ← v.prop "dbItemID"⟩

namespace Call

variable {V : Type} [Count V]

def step (t : Turn) (s : Store V) : Call V → Store V × Call V
  | .add c => Prod.map id .add (c.step t s)
  | .delete c => Prod.map id .delete (c.step t s)

def Finished : Call V → Prop
  | .add c => c.Finished
  | .delete c => c.Finished

instance : DecidablePred (Finished (V := V))
  | .add c => inferInstanceAs (Decidable c.Finished)
  | .delete c => inferInstanceAs (Decidable c.Finished)

def error? : Call V → Option JsError
  | .add (.failed _ e) => some e
  | .delete (.failed _ e) => some e
  | _ => none

def Applied : Call V → Prop
  | .add (.done _) => True
  | .delete (.done _ _) => True
  | _ => False

inductive Acts (s : Store V) : Call V → Store V → Call V → Prop
  | add {c c' : AddCall V} {s' : Store V} (h : AddCall.Acts s c s' c') :
      Acts s (.add c) s' (.add c')
  | delete {c c' : DeleteCall V} {s' : Store V}
      (h : DeleteCall.Acts s c s' c') : Acts s (.delete c) s' (.delete c')

inductive Fails (s : Store V) : Call V → Call V → Prop
  | add {c c' : AddCall V} (h : AddCall.Fails s c c') :
      Fails s (.add c) (.add c')
  | delete {c c' : DeleteCall V} (h : DeleteCall.Fails c c') :
      Fails s (.delete c) (.delete c')

theorem step_cases {t : Turn} {s s' : Store V} {c c' : Call V}
    (hfresh : t.Fresh s) (h : step t s c = (s', c')) :
    Acts s c s' c' ∨ (s' = s ∧ Fails s c c') ∨ (s' = s ∧ c' = c) := by
  cases c with
  | add c =>
      obtain ⟨rfl, rfl⟩ := Prod.mk.inj h
      rcases AddCall.step_cases (c := c) hfresh rfl with h | ⟨hs, h⟩ | ⟨hs, h⟩
      · exact Or.inl (.add h)
      · exact Or.inr (Or.inl ⟨hs, .add h⟩)
      · exact Or.inr (Or.inr ⟨hs, congrArg _ h⟩)
  | delete c =>
      obtain ⟨rfl, rfl⟩ := Prod.mk.inj h
      rcases DeleteCall.step_cases (t := t) (s := s) (c := c) rfl with
        h | ⟨hs, h⟩ | ⟨hs, h⟩
      · exact Or.inl (.delete h)
      · exact Or.inr (Or.inl ⟨hs, .delete h⟩)
      · exact Or.inr (Or.inr ⟨hs, congrArg _ h⟩)

/-- The operation in flight is answered: carried out, or refused. -/
def Answered (s : Store V) (k : Call V) (s' : Store V) (k' : Call V) : Prop :=
  ∃ t : Turn, t.Fresh s ∧ k.step t s = (s', k')

theorem Answered.ind {P : Store V → Call V → Prop} {s s' : Store V}
    {k k' : Call V} (h : Answered s k s' k') (hsame : P s k)
    (hacts : ∀ s' k', Acts s k s' k' → P s' k')
    (hfails : ∀ k', Fails s k k' → P s k') : P s' k' := by
  obtain ⟨t, hfresh, hstep⟩ := h
  rcases step_cases hfresh hstep with ha | ⟨rfl, hf⟩ | ⟨rfl, rfl⟩
  · exact hacts _ _ ha
  · exact hfails _ hf
  · exact hsame

end Call

/-! ## A call on its own

Nothing else touches the store while the call runs. Which of its operations
the backend carries out is part of the input. -/

/-- The operations of one call the backend carries out. -/
structure Answers where
  getItem : Bool
  updateStock : Bool
  queryBasket : Bool
  setLine : Bool
  updateLine : String → Bool
  getLine : Bool
  deleteLine : Bool

@[simps]
def Answers.all : Answers :=
  ⟨true, true, true, true, fun _ => true, true, true⟩

def Call.answer {V : Type} (a : Answers) (pick : ℕ) : Call V → Bool
  | .add (.getItem _) => a.getItem
  | .add (.updateStock _ _ _) => a.updateStock
  | .add (.queryBasket _ _ _ _) => a.queryBasket
  | .add (.setLine _ _ _) => a.setLine
  | .add (.updateLines _ _ pending _) =>
      ((pending[pick]?).map fun e => a.updateLine e.1).getD true
  | .delete (.getLine _) => a.getLine
  | .delete (.deleteLine _ _) => a.deleteLine
  | .delete (.getItem _ _ _) => a.getItem
  | .delete (.updateStock _ _ _ _) => a.updateStock
  | .add (.done _) | .add (.failed _ _) | .delete (.done _ _)
  | .delete (.failed _ _) => true

def AloneStep {V : Type} [Count V] (a : Answers) (x y : Store V × Call V) :
    Prop :=
  ∃ t : Turn, t.Fresh x.1 ∧ t.ok = x.2.answer a t.pick ∧
    x.2.step t x.1 = y

abbrev RunAlone {V : Type} [Count V] (a : Answers) :
    Store V × Call V → Store V × Call V → Prop :=
  Relation.ReflTransGen (AloneStep a)

/-! ## The client's answer -/

inductive Answer
  | success
  | error (e : JsError)
  deriving DecidableEq, Repr

/-- `onCall`'s contract: when and how the client is answered. An error thrown
by the handler goes out at once, and so does a value that is no promise; a
promise is awaited. `x` is the point the chain has reached. -/
def onCall {V : Type} (h : Handled V) (x : Store V × Call V) :
    Option Answer :=
  match h with
  | .threw e => some (.error e)
  | .returned .undefined _ => some .success
  | .returned .promise _ =>
      match x.2 with
      | .add (.done _) | .delete (.done _ _) => some .success
      | .add (.failed _ e) | .delete (.failed _ e) => some (.error e)
      | _ => none

end PhoRent
