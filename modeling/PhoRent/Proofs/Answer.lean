import PhoRent.Functions.Play

/-!
# What the client is told

`onCall` answers with what the handler comes to, and the handler comes to
`undefined` as soon as it has sent its first operation off. So the answer is
"success" while the chain is still waiting for its first document, whatever
becomes of it later; the error prepared for a count the stock cannot serve
reaches nobody. The answer is right exactly where the handler itself throws:
then nothing has been done and the client hears so.
-/

namespace PhoRent

section Answer

variable {V : Type}

/-- The client of a call made on `s` gets an answer, and the last argument
says whether all writes of the call have been applied by then. A chain runs
until its client can be answered. -/
inductive AnsweredAt [Count V] (s : Store V) :
    Handled V → Answer → Prop → Prop
  | threw (e : JsError) : AnsweredAt s (.threw e) (.error e) False
  | returned {v : Returned} {call : Call V} {x : Store V × Call V}
      {a : Answer}
      (hrun : Relation.ReflTransGen
        (fun y z => onCall (.returned v call) y = none ∧
          ∃ t : Turn, t.Fresh y.1 ∧ y.2.step t y.1 = z) (s, call) x)
      (ha : onCall (.returned v call) x = some a) :
      AnsweredAt s (.returned v call) a x.2.Applied

/-- The answer tells the truth: it is "success" if and only if all writes of
the call have been applied. -/
def Truthful [Count V] (h : Handled V) (s : Store V) : Prop :=
  ∀ a applied, AnsweredAt s h a applied → (a = .success ↔ applied)

def Call.Started : Call V → Prop
  | .add (.getItem _) => True
  | .delete (.getLine _) => True
  | _ => False

theorem Call.Started.not_applied {c : Call V} (h : c.Started) :
    ¬ c.Applied := by
  cases c with
  | add c => cases c <;> simp_all [Call.Started, Call.Applied]
  | delete c => cases c <;> simp_all [Call.Started, Call.Applied]

theorem truthful_threw [Count V] (e : JsError) (s : Store V) :
    Truthful (.threw e) s := by
  intro a applied h
  cases h
  simp

/-- What both handlers do when they do not throw. -/
theorem not_truthful_undefined [Count V] {c : Call V} (hc : c.Started)
    (s : Store V) : ¬ Truthful (.returned .undefined c) s := by
  intro h
  have hans : AnsweredAt s (.returned .undefined c) .success c.Applied :=
    .returned (x := (s, c)) .refl rfl
  exact hc.not_applied ((h _ _ hans).mp rfl)

/-- The payload is `null`, or `doc()` does not take one of its two ids. -/
def AddData.Rejected (data : Option (AddData V)) : Prop :=
  ∀ d, data = some d → docPath d.category = none ∨ docPath d.id = none

def DeleteData.Rejected (data : Option DeleteData) (auth : Option String) :
    Prop :=
  ∀ d uid, data = some d → auth = some uid → docPath d.itemID = none

theorem addItemInBasket_cases (data : Option (AddData V))
    (auth : Option String) :
    (AddData.Rejected data ∧ ∃ e, addItemInBasket data auth = .threw e) ∨
    (¬ AddData.Rejected data ∧ ∃ c : Call V, c.Started ∧
      addItemInBasket data auth = .returned .undefined c) := by
  cases data with
  | none => exact Or.inl ⟨fun d hd => (by cases hd), _, rfl⟩
  | some d =>
      rcases hc : docPath d.category with _ | categoryID
      · refine Or.inl ⟨fun d' hd => ?_, .documentPath, ?_⟩
        · cases hd; exact Or.inl hc
        · simp only [addItemInBasket, hc]
      · rcases hi : docPath d.id with _ | itemID
        · refine Or.inl ⟨fun d' hd => ?_, .documentPath, ?_⟩
          · cases hd; exact Or.inr hi
          · simp only [addItemInBasket, hc, hi]
        · refine Or.inr ⟨fun hrej => ?_,
            .add (.getItem ⟨d.id.toStr, d.category.toStr,
              ⟨categoryID, itemID⟩, d.count, auth⟩), ?_, ?_⟩
          · rcases hrej d rfl with h | h
            · rw [hc] at h; cases h
            · rw [hi] at h; cases h
          · trivial
          · simp only [addItemInBasket, hc, hi]

theorem deleteItemFromBasket_cases (data : Option DeleteData)
    (auth : Option String) :
    (DeleteData.Rejected data auth ∧
      ∃ e, deleteItemFromBasket (V := V) data auth = .threw e) ∨
    (¬ DeleteData.Rejected data auth ∧ ∃ c : Call V, c.Started ∧
      deleteItemFromBasket data auth = .returned .undefined c) := by
  cases data with
  | none => exact Or.inl ⟨fun d uid hd => (by cases hd), _, rfl⟩
  | some d =>
      cases auth with
      | none => exact Or.inl ⟨fun d uid _ hu => (by cases hu), _, rfl⟩
      | some uid =>
          rcases hi : docPath d.itemID with _ | itemID
          · refine Or.inl ⟨fun d' uid' hd _ => ?_, .documentPath, ?_⟩
            · cases hd; exact hi
            · simp only [deleteItemFromBasket, hi]
          · refine Or.inr ⟨fun hrej => ?_,
              .delete (.getLine ⟨uid, itemID, docPath d.categoryID,
                docPath d.dbItemID⟩), ?_, ?_⟩
            · have h := hrej d uid rfl rfl
              rw [hi] at h; cases h
            · trivial
            · simp only [deleteItemFromBasket, hi]

end Answer

/-- The answers of both callables are right on exactly the payloads their
handlers throw on. -/
theorem truthful_iff_rejected {V : Type} [Count V] :
    (∀ (data : Option (AddData V)) (auth : Option String) (s : Store V),
      Truthful (addItemInBasket data auth) s ↔ AddData.Rejected data) ∧
    (∀ (data : Option DeleteData) (auth : Option String) (s : Store V),
      Truthful (deleteItemFromBasket data auth) s ↔
        DeleteData.Rejected data auth) := by
  constructor
  · intro data auth s
    rcases addItemInBasket_cases data auth with ⟨hr, e, he⟩ | ⟨hr, c, hc, he⟩
    · rw [he]
      exact ⟨fun _ => hr, fun _ => truthful_threw e s⟩
    · rw [he]
      exact ⟨fun h => absurd h (not_truthful_undefined hc s),
        fun h => absurd h hr⟩
  · intro data auth s
    rcases deleteItemFromBasket_cases (V := V) data auth with
      ⟨hr, e, he⟩ | ⟨hr, c, hc, he⟩
    · rw [he]
      exact ⟨fun _ => hr, fun _ => truthful_threw e s⟩
    · rw [he]
      exact ⟨fun h => absurd h (not_truthful_undefined hc s),
        fun h => absurd h hr⟩

/-- Three cameras are asked for where there are two, and the client hears
"success". -/
theorem add_answers_success_unapplied :
    AnsweredAt (cameras 2)
      (addItemInBasket (some ⟨.str "cam", .str "photo", (3 : ℤ)⟩) (some "ann"))
      .success
      (Call.Applied (V := ℤ)
        (.add (.getItem ⟨"cam", "photo", ⟨"photo", "cam"⟩, 3, some "ann"⟩))) ∧
    ¬ Truthful
      (addItemInBasket (some ⟨.str "cam", .str "photo", (3 : ℤ)⟩) (some "ann"))
      (cameras 2) := by
  have he : addItemInBasket
      (some ⟨.str "cam", .str "photo", (3 : ℤ)⟩) (some "ann") =
      .returned .undefined
        (.add (.getItem
          ⟨"cam", "photo", ⟨"photo", "cam"⟩, 3, some "ann"⟩)) := by
    have hc : docPath (.str "photo") = some "photo" := by decide +kernel
    have hi : docPath (.str "cam") = some "cam" := by decide +kernel
    simp only [addItemInBasket, hc, hi, Js.Value.toStr]
  rw [he]
  exact ⟨.returned (x := (cameras 2, _)) .refl rfl,
    not_truthful_undefined
      (show Call.Started (.add (.getItem _)) from trivial) (cameras 2)⟩

end PhoRent
