import Mathlib.Logic.Relation

/-!
# A machine that handles events

One queue, one handler at a time: the state is a function of the events
handled so far, and their order is not known. A handler may trap, and then
there is no next state. Which events are meant to occur in a state is given
apart, as a condition, so that one machine can be run under several.
-/

namespace Machine

variable {σ ε : Type*}

/-- One event that meets the condition is handled, and does not trap. -/
def Handles (handle : σ → ε → Option σ) (ok : σ → ε → Prop) (s s' : σ) :
    Prop :=
  ∃ e, ok s e ∧ handle s e = some s'

/-- Any number of events that meet the condition, in any order. -/
abbrev Run (handle : σ → ε → Option σ) (ok : σ → ε → Prop) : σ → σ → Prop :=
  Relation.ReflTransGen (Handles handle ok)

variable {handle : σ → ε → Option σ} {ok : σ → ε → Prop} {s s' : σ}

/-- What every handler preserves holds along every run. -/
theorem Run.invariant {I : σ → Prop}
    (hstep : ∀ s e s', I s → ok s e → handle s e = some s' → I s')
    (h : Run handle ok s s') (h0 : I s) : I s' := by
  induction h with
  | refl => exact h0
  | tail _ hm ih =>
      obtain ⟨e, hok, he⟩ := hm
      exact hstep _ e _ ih hok he

theorem Run.mono {ok' : σ → ε → Prop} (hle : ∀ s e, ok s e → ok' s e)
    (h : Run handle ok s s') : Run handle ok' s s' := by
  induction h with
  | refl => exact .refl
  | tail _ hm ih =>
      obtain ⟨e, hok, he⟩ := hm
      exact ih.tail ⟨e, hle _ e hok, he⟩

/-- Handle a list of events, each if it meets the condition. -/
def play (handle : σ → ε → Option σ) (ok : σ → ε → Prop)
    [∀ s, DecidablePred (ok s)] : List ε → σ → Option σ
  | [], s => some s
  | e :: rest, s =>
      if ok s e then (handle s e).bind (play handle ok rest) else none

theorem play_cons [∀ s, DecidablePred (ok s)] {e : ε} {rest : List ε}
    (hok : ok s e) (hs : handle s e = some s') :
    play handle ok (e :: rest) s = play handle ok rest s' := by
  rw [play, if_pos hok, hs, Option.bind_some]

theorem play_run [∀ s, DecidablePred (ok s)] {l : List ε}
    (h : play handle ok l s = some s') : Run handle ok s s' := by
  induction l generalizing s with
  | nil =>
      obtain rfl := Option.some.inj h
      exact .refl
  | cons e rest ih =>
      rw [play] at h
      split at h
      · next hok =>
          obtain ⟨s₁, hs₁, hrest⟩ := Option.bind_eq_some_iff.mp h
          exact .head ⟨e, hok, hs₁⟩ (ih hrest)
      · cases h

/-- A run to a state with a decidable property, from its events. -/
theorem exists_run_of_play [∀ s, DecidablePred (ok s)] (l : List ε)
    {P : σ → Prop} [DecidablePred P]
    (h : (play handle ok l s).any (fun s' => decide (P s')) = true) :
    ∃ s', Run handle ok s s' ∧ P s' := by
  obtain ⟨s', hs', hP⟩ := Option.any_eq_true _ _ |>.mp h
  exact ⟨s', play_run hs', of_decide_eq_true hP⟩

/-- Two runs, one after the other and each under its own condition. -/
theorem exists_runs_of_play {ok' : σ → ε → Prop}
    [∀ s, DecidablePred (ok s)] [∀ s, DecidablePred (ok' s)]
    (first later : List ε) {P : σ → σ → Prop} [∀ s, DecidablePred (P s)]
    (h : (play handle ok first s).any (fun s₁ =>
      (play handle ok' later s₁).any fun s₂ => decide (P s₁ s₂)) = true) :
    ∃ s₁ s₂, Run handle ok s s₁ ∧ Run handle ok' s₁ s₂ ∧ P s₁ s₂ := by
  obtain ⟨s₁, hs₁, hlater⟩ := Option.any_eq_true _ _ |>.mp h
  obtain ⟨s₂, hs₂, hP⟩ := exists_run_of_play later hlater
  exact ⟨s₁, s₂, play_run hs₁, hs₂, hP⟩

/-- What is kept about the events handled so far, next to the state. -/
theorem play_foldl {γ : Type*} [∀ s, DecidablePred (ok s)] {next : γ → ε → γ}
    {R : σ → γ → Prop}
    (hstep : ∀ s e s' c, R s c → ok s e → handle s e = some s' →
      R s' (next c e))
    {l : List ε} {c : γ} (h : play handle ok l s = some s') (hR : R s c) :
    R s' (l.foldl next c) := by
  induction l generalizing s c with
  | nil =>
      obtain rfl := Option.some.inj h
      exact hR
  | cons e rest ih =>
      rw [play] at h
      split at h
      · next hok =>
          obtain ⟨s₁, hs₁, hrest⟩ := Option.bind_eq_some_iff.mp h
          exact ih hrest (hstep _ _ _ _ hR hok hs₁)
      · cases h

/-- Two machines side by side, the second one handling only what is an event of
its own: what relates the states after each step relates them after all. -/
theorem play_filterMap {σ₁ ε₁ : Type*} {handle₁ : σ₁ → ε₁ → Option σ₁}
    {R : σ → σ₁ → Prop} (view : ε → Option ε₁)
    (hnone : ∀ s e s' a, R s a → handle s e = some s' → view e = none →
      R s' a)
    (hsome : ∀ s e s' a e₁, R s a → handle s e = some s' →
      view e = some e₁ → ∃ a', handle₁ a e₁ = some a' ∧ R s' a')
    {l : List ε} {a : σ₁} (hR : R s a)
    (h : play handle (fun _ _ => True) l s = some s') :
    ∃ a', play handle₁ (fun _ _ => True) (l.filterMap view) a = some a' ∧
      R s' a' := by
  induction l generalizing s a with
  | nil =>
      obtain rfl := Option.some.inj h
      exact ⟨a, rfl, hR⟩
  | cons e rest ih =>
      rw [play, if_pos trivial] at h
      obtain ⟨s₁, hs₁, hrest⟩ := Option.bind_eq_some_iff.mp h
      cases hview : view e with
      | none =>
          rw [List.filterMap_cons_none hview]
          exact ih (hnone _ _ _ _ hR hs₁ hview) hrest
      | some e₁ =>
          obtain ⟨a₁, ha₁, hR₁⟩ := hsome _ _ _ _ _ hR hs₁ hview
          rw [List.filterMap_cons_some hview, play, if_pos trivial, ha₁]
          exact ih hR₁ hrest

end Machine
