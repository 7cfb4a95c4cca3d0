import Mathlib.Data.List.Nodup

/-!
# Writing by position

An element of a list can be changed where it stands or by what identifies it.
Here `List.modify` is the one, and `Indexed.update` the other. The first is
what code does that has kept an index; the second is what it means to do. They
agree where the index still leads to the key.
-/

namespace Indexed

variable {α β κ : Type*} {l : List α} {k : ℕ} {f : α → α}

theorem map_modify {g : α → β} (h : ∀ a ∈ l[k]?, g (f a) = g a) :
    (l.modify k f).map g = l.map g := by
  refine List.ext_getElem? fun i => ?_
  rw [List.getElem?_map, List.getElem?_modify, List.getElem?_map,
    Option.map_eq_map, Option.map_map]
  refine Option.map_congr fun a ha => ?_
  rw [Function.comp_apply]
  by_cases hki : k = i
  · rw [if_pos hki]
    exact h a (hki ▸ ha)
  · rw [if_neg hki]

/-- A change at a position that shows nowhere in the list does nothing to the
element there. -/
theorem modify_eq_self_iff {a : α} (hk : l[k]? = some a) :
    l.modify k f = l ↔ f a = a := by
  constructor
  · intro h
    have hget := congrArg (fun l : List α => l[k]?) h
    simp only [List.getElem?_modify, if_true, hk, Option.map_eq_map,
      Option.map_some, Option.some.injEq] at hget
    exact hget
  · intro hfa
    refine List.ext_getElem? fun i => ?_
    rw [List.getElem?_modify, Option.map_eq_map]
    by_cases hki : k = i
    · subst hki
      rw [hk, Option.map_some, if_pos rfl, hfa]
    · simp only [if_neg hki, Option.map_id']

variable [DecidableEq κ]

def update (key : α → κ) (x : κ) (f : α → α) (l : List α) : List α :=
  l.map fun a => if key a = x then f a else a

/-- Where keys are distinct, and `f` changes every element or none, changing
a position is changing the key exactly if the key is there, or nothing is
changed at all. -/
theorem modify_eq_update_iff {key : α → κ} {x : κ} {a : α}
    (hkeys : (l.map key).Nodup) (hf : f a = a → ∀ b, f b = b)
    (hk : l[k]? = some a) :
    l.modify k f = update key x f l ↔ key a = x ∨ f a = a := by
  constructor
  · intro h
    have hget := congrArg (fun l : List α => l[k]?) h
    simp only [List.getElem?_modify, if_true, update, List.getElem?_map, hk,
      Option.map_eq_map, Option.map_some, Option.some.injEq] at hget
    by_cases hx : key a = x
    · exact Or.inl hx
    · rw [if_neg hx] at hget
      exact Or.inr hget
  · intro h
    refine List.ext_getElem? fun i => ?_
    simp only [List.getElem?_modify, update, List.getElem?_map,
      Option.map_eq_map]
    cases hi : l[i]? with
    | none => rfl
    | some b =>
        simp only [Option.map_some, Option.some.injEq]
        by_cases hfa : f a = a
        · simp only [hf hfa, ite_self]
        have hx := h.resolve_right hfa
        by_cases hki : k = i
        · subst hki
          obtain rfl := Option.some.inj (hk.symm.trans hi)
          rw [if_pos rfl, if_pos hx]
        · -- the keys are distinct, so no other position has this one
          rw [if_neg hki, if_neg]
          intro hx'
          have hki' : (l.map key)[k]? = (l.map key)[i]? := by
            rw [List.getElem?_map, List.getElem?_map, hk, hi, Option.map_some,
              Option.map_some, hx, hx']
          have hlt : k < (l.map key).length := by
            rw [List.length_map]
            exact (List.getElem?_eq_some_iff.mp hk).1
          exact hki ((List.getElem?_inj hlt hkeys).mp hki')

end Indexed
