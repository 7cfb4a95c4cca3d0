import PhoRent.Functions.Callable
import PhoRent.Lib.Interleave

/-!
# Playing a schedule

The actions of calls are a relation; a schedule makes them a function. It says,
turn by turn, which call is answered and how, so a run can be given by writing
its schedule down.
-/

namespace PhoRent

variable {V : Type} [Count V]

def Turn.fresh? (t : Turn) (s : Store V) : Bool :=
  s.basket.docs.all fun e => (ofLex e.1).2 ≠ t.autoId

omit [Count V] in
theorem Turn.fresh_of_fresh? {t : Turn} {s : Store V}
    (h : t.fresh? s = true) : t.Fresh s := by
  intro uid
  cases hl : s.line uid t.autoId with
  | none => rfl
  | some d =>
      have hm := List.all_eq_true.mp h _ (Keyed.Coll.mem_docs_of_get hl)
      simp [userKey] at hm

/-! ## Operations that can be carried out -/

def AddCall.carried (t : Turn) (s : Store V) : AddCall V → Bool
  | .getItem _ | .queryBasket _ _ _ _ => true
  | .updateStock req _ n => (s.updateItem req.ref n).isSome
  | .setLine _ _ _ => t.fresh? s
  | .updateLines _ uid pending _ =>
      match pending[t.pick]? with
      | some (docID, n) => (s.updateLine uid docID n).isSome
      | none => false
  | .done _ | .failed _ _ => false

def DeleteCall.carried (_ : Turn) (s : Store V) : DeleteCall V → Bool
  | .getLine _ | .deleteLine _ _ | .getItem _ _ _ => true
  | .updateStock _ _ ref m => (s.updateItem ref m).isSome
  | .done _ _ | .failed _ _ => false

def Call.carried (t : Turn) (s : Store V) : Call V → Bool
  | .add c => c.carried t s
  | .delete c => c.carried t s

theorem AddCall.acts_of_carried {t : Turn} {s : Store V} {c : AddCall V}
    (ht : t.ok = true) (h : c.carried t s = true) :
    AddCall.Acts s c (c.step t s).1 (c.step t s).2 := by
  cases c with
  | getItem req => simp only [AddCall.step, ht]; exact .getItem req
  | updateStock req item n =>
      obtain ⟨s', hs⟩ := Option.isSome_iff_exists.mp h
      simp only [AddCall.step, ht, if_true, hs]
      exact .updateStock req item n hs
  | queryBasket req item uid name =>
      simp only [AddCall.step, ht]
      exact .queryBasket req item uid name
  | setLine req uid d =>
      simp only [AddCall.step, ht]
      exact .setLine req uid d t.autoId (Turn.fresh_of_fresh? h)
  | updateLines req uid pending err =>
      simp only [AddCall.carried] at h
      split at h
      · next docID n hk =>
          obtain ⟨s', hs⟩ := Option.isSome_iff_exists.mp h
          simp only [AddCall.step, hk, ht, if_true, hs]
          exact .updateLine req uid pending err t.pick hk hs
      · cases h
  | done | failed => cases h

theorem DeleteCall.acts_of_carried {t : Turn} {s : Store V}
    {c : DeleteCall V} (ht : t.ok = true) (h : c.carried t s = true) :
    DeleteCall.Acts s c (c.step t s).1 (c.step t s).2 := by
  cases c with
  | getLine req => simp only [DeleteCall.step, ht]; exact .getLine req
  | deleteLine req n =>
      simp only [DeleteCall.step, ht]
      exact .deleteLine req n
  | getItem req n ref =>
      simp only [DeleteCall.step, ht]
      exact .getItem req n ref
  | updateStock req n ref m =>
      obtain ⟨s', hs⟩ := Option.isSome_iff_exists.mp h
      simp only [DeleteCall.step, ht, if_true, hs]
      exact .updateStock req n ref m hs
  | done | failed => cases h

theorem Call.acts_of_carried {t : Turn} {s : Store V} {k : Call V}
    (ht : t.ok = true) (h : k.carried t s = true) :
    Call.Acts s k (k.step t s).1 (k.step t s).2 := by
  cases k with
  | add c => exact .add (AddCall.acts_of_carried ht h)
  | delete c => exact .delete (DeleteCall.acts_of_carried ht h)

/-! ## Acting on a schedule -/

section Acting

variable {κ : Type} {carried : Turn → Store V → κ → Bool}
  {step : Turn → Store V → κ → Store V × κ} {ok : Store V → κ → Prop}
  [∀ s k, Decidable (ok s k)]

/-- Carry out the operation in flight, drawing the id and answering the
operation the schedule says; only where `ok` holds. -/
def act? (carried : Turn → Store V → κ → Bool)
    (step : Turn → Store V → κ → Store V × κ) (ok : Store V → κ → Prop)
    [∀ s k, Decidable (ok s k)] (e : String × ℕ) (s : Store V) (k : κ) :
    Option (Store V × κ) :=
  let t : Turn := ⟨true, e.1, e.2⟩
  if carried t s k = true ∧ ok s k then some (step t s k) else none

omit [Count V] in
theorem acts_of_act? {Acts : Store V → κ → Store V → κ → Prop}
    (hacts : ∀ t s k, t.ok = true → carried t s k = true →
      Acts s k (step t s k).1 (step t s k).2)
    {e : String × ℕ} {s s' : Store V} {k k' : κ}
    (h : act? carried step ok e s k = some (s', k')) :
    Acts s k s' k' ∧ ok s k := by
  rw [act?] at h
  split at h
  · next hok =>
      have ha := hacts ⟨true, e.1, e.2⟩ s k rfl hok.1
      rw [Option.some.inj h] at ha
      exact ⟨ha, hok.2⟩
  · cases h

end Acting

def AddCall.act? (ok : Store V → AddCall V → Prop)
    [∀ s k, Decidable (ok s k)] :
    String × ℕ → Store V → AddCall V → Option (Store V × AddCall V) :=
  PhoRent.act? (fun t s c => c.carried t s) AddCall.step ok

def DeleteCall.act? (ok : Store V → DeleteCall V → Prop)
    [∀ s k, Decidable (ok s k)] :
    String × ℕ → Store V → DeleteCall V → Option (Store V × DeleteCall V) :=
  PhoRent.act? (fun t s c => c.carried t s) DeleteCall.step ok

def Call.act? (ok : Store V → Call V → Prop) [∀ s k, Decidable (ok s k)] :
    String × ℕ → Store V → Call V → Option (Store V × Call V) :=
  PhoRent.act? (fun t s k => k.carried t s) Call.step ok

theorem AddCall.acts_of_act? {ok : Store V → AddCall V → Prop}
    [∀ s k, Decidable (ok s k)] {e : String × ℕ} {s s' : Store V}
    {c c' : AddCall V} (h : c.act? ok e s = some (s', c')) :
    AddCall.Acts s c s' c' ∧ ok s c :=
  PhoRent.acts_of_act? (fun _ _ _ => AddCall.acts_of_carried) h

theorem DeleteCall.acts_of_act? {ok : Store V → DeleteCall V → Prop}
    [∀ s k, Decidable (ok s k)] {e : String × ℕ} {s s' : Store V}
    {c c' : DeleteCall V} (h : c.act? ok e s = some (s', c')) :
    DeleteCall.Acts s c s' c' ∧ ok s c :=
  PhoRent.acts_of_act? (fun _ _ _ => DeleteCall.acts_of_carried) h

theorem Call.acts_of_act? {ok : Store V → Call V → Prop}
    [∀ s k, Decidable (ok s k)] {e : String × ℕ} {s s' : Store V}
    {k k' : Call V} (h : k.act? ok e s = some (s', k')) :
    Call.Acts s k s' k' ∧ ok s k :=
  PhoRent.acts_of_act? (fun _ _ _ => Call.acts_of_carried) h

/-- Answer the operation in flight as the turn says, if the id it would draw
is fresh. -/
def Call.answer? (t : Turn) (s : Store V) (k : Call V) :
    Option (Store V × Call V) :=
  if t.fresh? s then some (k.step t s) else none

theorem Call.answered_of_answer? {t : Turn} {s s' : Store V} {k k' : Call V}
    (h : k.answer? t s = some (s', k')) : Call.Answered s k s' k' := by
  rw [Call.answer?] at h
  split at h
  · next hf => exact ⟨t, Turn.fresh_of_fresh? hf, Option.some.inj h⟩
  · cases h

omit [Count V] in
theorem Call.answer_all (pick : ℕ) (k : Call V) :
    k.answer .all pick = true := by
  cases k with
  | add c =>
      cases c with
      | updateLines req uid pending err =>
          simp only [Call.answer]
          cases pending[pick]? <;> rfl
      | getItem | updateStock | queryBasket | setLine | done | failed => rfl
  | delete c => cases c <;> rfl

/-- A call running alone with everything carried out, drawing these ids. -/
def playAlone : List String → Store V × Call V → Option (Store V × Call V)
  | [], x => some x
  | id :: rest, x =>
      match x.2.answer? ⟨true, id, 0⟩ x.1 with
      | some y => playAlone rest y
      | none => none

theorem runAlone_of_playAlone {ids : List String} {x z : Store V × Call V}
    (h : playAlone ids x = some z) : RunAlone .all x z := by
  induction ids generalizing x with
  | nil =>
      obtain rfl := Option.some.inj h
      exact .refl
  | cons id rest ih =>
      rw [playAlone] at h
      split at h
      · next y hy =>
          rw [Call.answer?] at hy
          split at hy
          · next hf =>
              have hstep : AloneStep .all x y :=
                ⟨⟨true, id, 0⟩, Turn.fresh_of_fresh? hf,
                  (Call.answer_all _ _).symm, Option.some.inj hy⟩
              exact .head hstep (ih h)
          · cases hy
      · cases h

theorem exists_runAlone (ids : List String) {x : Store V × Call V}
    {P : Store V × Call V → Prop} [DecidablePred P]
    (h : (playAlone ids x).any (fun z => decide (P z)) = true) :
    ∃ z, RunAlone .all x z ∧ P z := by
  obtain ⟨z, hz, hP⟩ := Option.any_eq_true _ _ |>.mp h
  exact ⟨z, runAlone_of_playAlone hz, of_decide_eq_true hP⟩

/-! ## A shop

The runs written down in this development all play in a shop with one kind of
camera. -/

def camera : ItemRef := ⟨"photo", "cam"⟩

def cameras (n : V) : Store V where
  items := fun ref =>
    if ref = camera then some ⟨some "Camera", n, []⟩ else none
  basket := .empty
  orders := .empty

def cameraLine (n : V) : LineDoc V :=
  ⟨⟨some "Camera", n, []⟩, "cam", "photo"⟩

end PhoRent
