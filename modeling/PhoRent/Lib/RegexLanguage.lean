import Mathlib.Computability.Language
import PhoRent.Lib.Regex

/-!
# Patterns that denote languages

Where a pattern has no anchor and no look-ahead, it does not matter what stands
before and behind the part of the word it consumes. Then it denotes a language,
and leads from a position behind each word of the language that is found there.

So the whole word is matched exactly if it is in the language, and how it is
split between the parts of a pattern is a matter of lists and not of positions.
-/

namespace Regex

open Pattern Computability

variable {α : Type*}

/-- No anchor and no look-ahead. -/
def Pattern.Plain : Pattern α → Prop
  | .nothing | .one _ => True
  | .start | .ahead _ => False
  | .seq r s | .alt r s => r.Plain ∧ s.Plain
  | .star r => r.Plain

section Plain

variable {r : Pattern α} {n m : ℕ}

theorem Pattern.Plain.atLeast (h : r.Plain) : (atLeast n r).Plain := by
  induction n with
  | zero => exact h
  | succ n ih => exact ⟨h, ih⟩

theorem Pattern.Plain.atMost (h : r.Plain) : (atMost m r).Plain := by
  induction m with
  | zero => trivial
  | succ m ih => exact ⟨⟨h, ih⟩, trivial⟩

theorem Pattern.Plain.between (h : r.Plain) : (between n m r).Plain := by
  induction n with
  | zero => exact h.atMost
  | succ n ih => exact ⟨h, ih⟩

end Plain

def language : Pattern α → Language α
  | .nothing | .start | .ahead _ => 1
  | .one p => {u | ∃ a, p a = true ∧ u = [a]}
  | .seq r s => language r * language s
  | .alt r s => language r + language s
  | .star r => (language r)∗

section Matches

variable {w u v : List α} {r s : Pattern α} {i j : ℕ}

/-- A word of the language stands at `i`, and ends at `j`. -/
def Stands (w : List α) (l : Language α) (i j : ℕ) : Prop :=
  ∃ u ∈ l, u <+: w.drop i ∧ j = i + u.length

theorem prefix_drop_append (hu : u <+: w.drop i) :
    u ++ v <+: w.drop i ↔ v <+: w.drop (i + u.length) := by
  obtain ⟨y, hy⟩ := hu
  have hdrop : w.drop (i + u.length) = y := by
    rw [← List.drop_drop, ← hy, List.drop_left]
  rw [hdrop, ← hy, List.prefix_append_right_inj]

theorem stands_mul {l m : Language α} :
    Stands w (l * m) i j ↔ ∃ k, Stands w l i k ∧ Stands w m k j := by
  constructor
  · rintro ⟨_, hmem, hpre, rfl⟩
    obtain ⟨u, hu, v, hv, rfl⟩ := Language.mem_mul.mp hmem
    have hfirst : u <+: w.drop i := (List.prefix_append u v).trans hpre
    refine ⟨_, ⟨u, hu, hfirst, rfl⟩,
      v, hv, (prefix_drop_append hfirst).mp hpre, ?_⟩
    rw [List.length_append, Nat.add_assoc]
  · rintro ⟨_, ⟨u, hu, hfirst, rfl⟩, v, hv, hsecond, rfl⟩
    refine ⟨u ++ v, Language.mem_mul.mpr ⟨u, hu, v, hv, rfl⟩,
      (prefix_drop_append hfirst).mpr hsecond, ?_⟩
    rw [List.length_append, Nat.add_assoc]

theorem stands_add {l m : Language α} :
    Stands w (l + m) i j ↔ Stands w l i j ∨ Stands w m i j := by
  simp only [Stands, Language.mem_add, or_and_right, exists_or]

theorem stands_one : Stands w 1 i j ↔ j = i := by
  simp [Stands, Language.mem_one]

theorem stands_kstar_cons {l : Language α} :
    Stands w l∗ i j ↔ j = i ∨ ∃ k, Stands w l i k ∧ Stands w l∗ k j := by
  rw [← stands_mul, ← stands_one (w := w), ← stands_add,
    Language.one_add_self_mul_kstar_eq_kstar]

theorem stands_kstar {l : Language α} :
    Stands w l∗ i j ↔ Relation.ReflTransGen (Stands w l) i j := by
  constructor
  · rintro ⟨_, hmem, hpre, rfl⟩
    obtain ⟨pieces, rfl, hpieces⟩ := Language.mem_kstar.mp hmem
    induction pieces generalizing i with
    | nil => exact .refl
    | cons u rest ih =>
        obtain ⟨hu, hrest⟩ := List.forall_mem_cons.mp hpieces
        rw [List.flatten_cons] at hpre
        have hfirst : u <+: w.drop i := (List.prefix_append u _).trans hpre
        refine .head ⟨u, hu, hfirst, rfl⟩ ?_
        rw [List.flatten_cons, List.length_append, ← Nat.add_assoc]
        exact ih hrest (Language.join_mem_kstar hrest)
          ((prefix_drop_append hfirst).mp hpre)
  · intro h
    induction h using Relation.ReflTransGen.head_induction_on with
    | refl => exact stands_kstar_cons.mpr (Or.inl rfl)
    | head hfirst _ ih =>
        exact stands_kstar_cons.mpr (Or.inr ⟨_, hfirst, ih⟩)

theorem matches_one {p : α → Bool} :
    Matches w (one p) i j ↔ Stands w (language (one p)) i j := by
  constructor
  · rintro ⟨rfl, hany⟩
    obtain ⟨a, ha, hp⟩ := (Option.any_eq_true _ _).mp hany
    refine ⟨[a], ⟨a, hp, rfl⟩, ?_, rfl⟩
    obtain ⟨hlt, rfl⟩ := List.getElem?_eq_some_iff.mp ha
    rw [List.drop_eq_getElem_cons hlt]
    exact ⟨_, rfl⟩
  · rintro ⟨_, ⟨a, hp, rfl⟩, ⟨y, hy⟩, rfl⟩
    refine ⟨rfl, (Option.any_eq_true _ _).mpr ⟨a, ?_, hp⟩⟩
    have hhead : (w.drop i)[0]? = some a := by rw [← hy]; rfl
    rwa [List.getElem?_drop, Nat.add_zero] at hhead

/-- A plain pattern leads behind the words of its language. -/
theorem matches_iff_stands (h : r.Plain) :
    Matches w r i j ↔ Stands w (language r) i j := by
  induction r generalizing i j with
  | nothing => exact stands_one.symm
  | start | ahead => exact h.elim
  | one p => exact matches_one
  | seq r s ihr ihs =>
      rw [language, stands_mul]
      exact exists_congr fun k => and_congr (ihr h.1) (ihs h.2)
  | alt r s ihr ihs =>
      rw [language, stands_add]
      exact or_congr (ihr h.1) (ihs h.2)
  | star r ih =>
      rw [language, stands_kstar]
      have hsame : Matches w r = Stands w (language r) :=
        funext fun a => funext fun b => propext (ih h)
      rw [Matches, hsame]

theorem matchesWhole_iff_mem (h : r.Plain) :
    matchesWhole w r = true ↔ w ∈ language r := by
  rw [matchesWhole_iff, matches_iff_stands h]
  constructor
  · rintro ⟨u, hu, hpre, hlength⟩
    rw [Nat.zero_add] at hlength
    obtain rfl : u = w := hpre.eq_of_length hlength.symm
    exact hu
  · intro hw
    exact ⟨w, hw, List.prefix_rfl, (Nat.zero_add _).symm⟩

end Matches

/-! ## Repetitions of a class -/

section Classes

variable {p : α → Bool} {u : List α} {n m : ℕ}

theorem mem_language_seq {r s : Pattern α} : u ∈ language (seq r s) ↔
    ∃ v ∈ language r, ∃ v' ∈ language s, v ++ v' = u :=
  Language.mem_mul

theorem mem_language_one_seq {s : Pattern α} :
    u ∈ language (seq (one p) s) ↔
      ∃ a v, p a = true ∧ v ∈ language s ∧ u = a :: v := by
  rw [mem_language_seq]
  constructor
  · rintro ⟨_, ⟨a, ha, rfl⟩, v, hv, rfl⟩
    exact ⟨a, v, ha, hv, rfl⟩
  · rintro ⟨a, v, ha, hv, rfl⟩
    exact ⟨[a], ⟨a, ha, rfl⟩, v, hv, rfl⟩

theorem mem_language_star_one :
    u ∈ language (star (one p)) ↔ ∀ a ∈ u, p a = true := by
  constructor
  · intro hu
    obtain ⟨pieces, rfl, hpieces⟩ := Language.mem_kstar.mp hu
    intro a ha
    obtain ⟨piece, hpiece, ha⟩ := List.mem_flatten.mp ha
    obtain ⟨b, hb, rfl⟩ := hpieces piece hpiece
    rwa [List.mem_singleton.mp ha]
  · intro hall
    refine Language.mem_kstar.mpr ⟨u.map fun a => [a], ?_, ?_⟩
    · rw [← List.flatMap_def, List.flatMap_singleton']
    · intro piece hpiece
      obtain ⟨a, ha, rfl⟩ := List.mem_map.mp hpiece
      exact ⟨a, hall a ha, rfl⟩

theorem mem_language_atLeast_one :
    u ∈ language (atLeast n (one p)) ↔
      n ≤ u.length ∧ ∀ a ∈ u, p a = true := by
  induction n generalizing u with
  | zero => rw [atLeast, mem_language_star_one]; simp
  | succ n ih =>
      rw [atLeast, mem_language_one_seq]
      simp only [ih]
      constructor
      · rintro ⟨a, v, ha, ⟨hn, hv⟩, rfl⟩
        exact ⟨Nat.succ_le_succ hn, List.forall_mem_cons.mpr ⟨ha, hv⟩⟩
      · rintro ⟨hn, hall⟩
        obtain ⟨a, v, rfl⟩ := List.exists_cons_of_length_pos
          (Nat.lt_of_lt_of_le (Nat.succ_pos n) hn)
        obtain ⟨ha, hv⟩ := List.forall_mem_cons.mp hall
        exact ⟨a, v, ha, ⟨Nat.le_of_succ_le_succ hn, hv⟩, rfl⟩

theorem mem_language_atMost_one :
    u ∈ language (atMost m (one p)) ↔
      u.length ≤ m ∧ ∀ a ∈ u, p a = true := by
  induction m generalizing u with
  | zero =>
      rw [atMost, language, Language.mem_one, Nat.le_zero,
        List.length_eq_zero_iff]
      exact ⟨fun hu => ⟨hu, by simp [hu]⟩, And.left⟩
  | succ m ih =>
      have hunfold : u ∈ language (atMost (m + 1) (one p)) ↔
          u ∈ language (seq (one p) (atMost m (one p))) ∨ u = [] := Iff.rfl
      rw [hunfold, mem_language_one_seq]
      simp only [ih]
      cases u with
      | nil => simp
      | cons b u => simp [and_assoc, and_left_comm]

theorem mem_language_between_one :
    u ∈ language (between n m (one p)) ↔
      n ≤ u.length ∧ u.length ≤ n + m ∧ ∀ a ∈ u, p a = true := by
  induction n generalizing u with
  | zero => rw [between, mem_language_atMost_one]; simp
  | succ n ih =>
      rw [between, mem_language_one_seq]
      simp only [ih]
      constructor
      · rintro ⟨a, v, ha, ⟨hn, hm, hv⟩, rfl⟩
        refine ⟨Nat.succ_le_succ hn, ?_, List.forall_mem_cons.mpr ⟨ha, hv⟩⟩
        rw [List.length_cons]
        omega
      · rintro ⟨hn, hm, hall⟩
        obtain ⟨a, v, rfl⟩ := List.exists_cons_of_length_pos
          (Nat.lt_of_lt_of_le (Nat.succ_pos n) hn)
        obtain ⟨ha, hv⟩ := List.forall_mem_cons.mp hall
        rw [List.length_cons] at hn hm
        exact ⟨a, v, ha, ⟨by omega, by omega, hv⟩, rfl⟩

end Classes

end Regex
