import Mathlib.Logic.Relation

/-!
# One system standing for another

A system works in its own way at what another one only describes, and a
function says which state of the description a state of the system stands for.
Taking a step of the system may take several of the description, or none.

Two rules carry this over to runs, one in each direction. Each comes with an
invariant of its own, since what a step has to rely on to be a described one is
rarely what is needed to carry out a description. Together they say that what
the system can get to is exactly what is described.
-/

namespace Simulation

open Relation

variable {σ α : Type*} {step : σ → σ → Prop} {astep : α → α → Prop}
  {I J : σ → Prop} {f : σ → α} {s : σ} {a : α}

/-- Every step that relies on the invariant, and keeps it, is described. -/
def Sound (step : σ → σ → Prop) (astep : α → α → Prop) (f : σ → α)
    (I : σ → Prop) : Prop :=
  ∀ s s', I s → step s s' → I s' ∧ ReflTransGen astep (f s) (f s')

/-- Every described step can be carried out, and the invariant is kept. -/
def Complete (step : σ → σ → Prop) (astep : α → α → Prop) (f : σ → α)
    (J : σ → Prop) : Prop :=
  ∀ s a, J s → astep (f s) a → ∃ s', ReflTransGen step s s' ∧ J s' ∧ f s' = a

theorem Sound.run (h : Sound step astep f I) {s' : σ}
    (hrun : ReflTransGen step s s') (h0 : I s) :
    I s' ∧ ReflTransGen astep (f s) (f s') := by
  induction hrun with
  | refl => exact ⟨h0, .refl⟩
  | tail _ hstep ih =>
      obtain ⟨hI, hrun⟩ := ih
      obtain ⟨hI', hnext⟩ := h _ _ hI hstep
      exact ⟨hI', hrun.trans hnext⟩

theorem Complete.run (h : Complete step astep f J)
    (hrun : ReflTransGen astep (f s) a) (h0 : J s) :
    ∃ s', ReflTransGen step s s' ∧ J s' ∧ f s' = a := by
  induction hrun with
  | refl => exact ⟨s, .refl, h0, rfl⟩
  | tail _ hstep ih =>
      obtain ⟨s₁, hrun, hJ, rfl⟩ := ih
      obtain ⟨s', hnext, hJ', rfl⟩ := h s₁ _ hJ hstep
      exact ⟨s', hrun.trans hnext, hJ', rfl⟩

/-- What the reached states stand for is what the description reaches. -/
theorem reaches_iff (hI : Sound step astep f I) (hJ : Complete step astep f J)
    (h0 : I s) (h0' : J s) :
    (∃ s', ReflTransGen step s s' ∧ f s' = a) ↔ ReflTransGen astep (f s) a := by
  constructor
  · intro hex
    obtain ⟨s', hrun, rfl⟩ := hex
    exact (hI.run hrun h0).2
  · intro hrun
    obtain ⟨s', hrun', -, hs'⟩ := hJ.run hrun h0'
    exact ⟨s', hrun', hs'⟩

end Simulation
