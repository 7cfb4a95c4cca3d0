import Mathlib.Data.Nat.Basic
import Mathlib.Logic.Relation

/-!
# Regular expressions with look-ahead

A look-ahead asks about the word from a position on and consumes nothing, so a
pattern does not denote a language: it denotes a relation between positions of
a word. Sequences compose these relations, repetition is the reflexive
transitive closure, and a look-ahead is the part of the identity where the
pattern inside it leads somewhere.

`accepts` is the backtracking matcher. It is handed what is to hold at the
position it gets to, and its repetition goes around again only if a round has
consumed something. `accepts_iff` says that it decides the relation.
-/

namespace Regex

variable {α : Type*}

inductive Pattern (α : Type*)
  | nothing
  | start
  | one (p : α → Bool)
  | seq (r s : Pattern α)
  | alt (r s : Pattern α)
  | star (r : Pattern α)
  | ahead (r : Pattern α)

namespace Pattern

/-- `r{n,}`. -/
def atLeast : ℕ → Pattern α → Pattern α
  | 0, r => star r
  | n + 1, r => seq r (atLeast n r)

/-- `r{0,n}`. -/
def atMost : ℕ → Pattern α → Pattern α
  | 0, _ => nothing
  | n + 1, r => alt (seq r (atMost n r)) nothing

/-- `r{n,n+m}`. -/
def between : ℕ → ℕ → Pattern α → Pattern α
  | 0, m, r => atMost m r
  | n + 1, m, r => seq r (between n m r)

end Pattern

open Pattern

/-- From which positions of the word to which a pattern leads. -/
def Matches (w : List α) : Pattern α → ℕ → ℕ → Prop
  | .nothing => fun i j => j = i
  | .start => fun i j => i = 0 ∧ j = i
  | .one p => fun i j => j = i + 1 ∧ (w[i]?).any p = true
  | .seq r s => fun i j => ∃ k, Matches w r i k ∧ Matches w s k j
  | .alt r s => fun i j => Matches w r i j ∨ Matches w s i j
  | .star r => Relation.ReflTransGen (Matches w r)
  | .ahead r => fun i j => (∃ k, Matches w r i k) ∧ j = i

/-- Greedy repetition: a round that has consumed something, then the others,
or else what comes after. -/
def repeated (body : ℕ → (ℕ → Bool) → Bool) : ℕ → ℕ → (ℕ → Bool) → Bool
  | 0, i, next => next i
  | fuel + 1, i, next =>
      body i (fun j => decide (i < j) && repeated body fuel j next) || next i

/-- Whether `r` leads from `i` to a position where `next` holds. -/
def accepts (w : List α) : Pattern α → ℕ → (ℕ → Bool) → Bool
  | .nothing, i, next => next i
  | .start, i, next => i == 0 && next i
  | .one p, i, next => (w[i]?).any p && next (i + 1)
  | .seq r s, i, next => accepts w r i fun k => accepts w s k next
  | .alt r s, i, next => accepts w r i next || accepts w s i next
  | .star r, i, next => repeated (accepts w r) w.length i next
  | .ahead r, i, next => accepts w r i (fun _ => true) && next i

def matchesWhole (w : List α) (r : Pattern α) : Bool :=
  accepts w r 0 fun j => j == w.length

section Matches

variable {w : List α}

/-- A match goes forward. -/
theorem Matches.le {r : Pattern α} {i j : ℕ} (h : Matches w r i j) :
    i ≤ j := by
  induction r generalizing i j with
  | nothing => exact Nat.le_of_eq (Eq.symm h)
  | start => exact Nat.le_of_eq (Eq.symm h.2)
  | one p => exact h.1 ▸ Nat.le_succ i
  | seq r s ihr ihs =>
      obtain ⟨k, hr, hs⟩ := h
      exact Nat.le_trans (ihr hr) (ihs hs)
  | alt r s ihr ihs => exact h.elim ihr ihs
  | star r ih =>
      induction h with
      | refl => exact Nat.le_refl i
      | tail _ hm ihm => exact Nat.le_trans ihm (ih hm)
  | ahead r _ => exact Nat.le_of_eq (Eq.symm h.2)

theorem Matches.le_length {r : Pattern α} {i j : ℕ} (h : Matches w r i j)
    (hi : i ≤ w.length) : j ≤ w.length := by
  induction r generalizing i j with
  | nothing => exact h ▸ hi
  | start => exact h.2 ▸ hi
  | one p =>
      obtain ⟨rfl, hany⟩ := h
      obtain ⟨a, ha, -⟩ := (Option.any_eq_true _ _).mp hany
      exact (List.getElem?_eq_some_iff.mp ha).1
  | seq r s ihr ihs =>
      obtain ⟨k, hr, hs⟩ := h
      exact ihs hs (ihr hr hi)
  | alt r s ihr ihs => exact h.elim (ihr · hi) (ihs · hi)
  | star r ih =>
      induction h with
      | refl => exact hi
      | tail _ hm ihm => exact ih hm ihm
  | ahead r _ => exact h.2 ▸ hi

/-- Rounds that consume nothing can be left out. -/
theorem exists_progress {R : ℕ → ℕ → Prop} {i j : ℕ}
    (hle : ∀ {a b : ℕ}, R a b → a ≤ b) (h : Relation.ReflTransGen R i j) :
    i = j ∨ ∃ k, R i k ∧ i < k ∧ Relation.ReflTransGen R k j := by
  induction h using Relation.ReflTransGen.head_induction_on with
  | refl => exact .inl rfl
  | head hm hrest ih =>
      rename_i a c
      rcases Nat.lt_or_eq_of_le (hle hm) with hlt | heq
      · exact .inr ⟨c, hm, hlt, hrest⟩
      · rw [heq]
        exact ih

/-- A repetition finds what any number of rounds can reach, given as much fuel
as there is word left. -/
theorem repeated_iff {r : Pattern α} {body : ℕ → (ℕ → Bool) → Bool}
    (hbody : ∀ {i : ℕ} {next : ℕ → Bool}, i ≤ w.length →
      (body i next = true ↔ ∃ j, Matches w r i j ∧ next j = true))
    {fuel i : ℕ} {next : ℕ → Bool} (hi : i ≤ w.length)
    (hfuel : w.length ≤ i + fuel) :
    repeated body fuel i next = true ↔
      ∃ j, Matches w (star r) i j ∧ next j = true := by
  induction fuel generalizing i with
  | zero =>
      rw [repeated]
      constructor
      · exact fun h => ⟨i, .refl, h⟩
      · rintro ⟨j, hm, hnext⟩
        have hle := Matches.le hm
        have hlen := Matches.le_length hm hi
        rwa [show i = j by omega]
  | succ fuel ih =>
      rw [repeated, Bool.or_eq_true, hbody hi]
      constructor
      · rintro (⟨k, hm, hk⟩ | hnext)
        · rw [Bool.and_eq_true, decide_eq_true_eq] at hk
          have hrest := (ih (hm.le_length hi) (by omega)).mp hk.2
          obtain ⟨j, hj, hnext⟩ := hrest
          exact ⟨j, .head hm hj, hnext⟩
        · exact ⟨i, .refl, hnext⟩
      · rintro ⟨j, hm, hnext⟩
        rcases exists_progress Matches.le hm with rfl | ⟨k, hk, hlt, hrest⟩
        · exact .inr hnext
        · refine .inl ⟨k, hk, ?_⟩
          rw [Bool.and_eq_true, decide_eq_true_eq,
            ih (hk.le_length hi) (by omega)]
          exact ⟨hlt, j, hrest, hnext⟩

/-- The matcher decides the relation. -/
theorem accepts_iff {r : Pattern α} {i : ℕ} {next : ℕ → Bool}
    (hi : i ≤ w.length) :
    accepts w r i next = true ↔ ∃ j, Matches w r i j ∧ next j = true := by
  induction r generalizing i next with
  | nothing => simp [accepts, Matches]
  | start => simp [accepts, Matches, and_assoc]
  | one p => simp [accepts, Matches, and_assoc]
  | seq r s ihr ihs =>
      rw [accepts, ihr hi]
      constructor
      · rintro ⟨k, hr, hk⟩
        obtain ⟨j, hs, hnext⟩ := (ihs (hr.le_length hi)).mp hk
        exact ⟨j, ⟨k, hr, hs⟩, hnext⟩
      · rintro ⟨j, ⟨k, hr, hs⟩, hnext⟩
        exact ⟨k, hr, (ihs (hr.le_length hi)).mpr ⟨j, hs, hnext⟩⟩
  | alt r s ihr ihs =>
      rw [accepts, Bool.or_eq_true, ihr hi, ihs hi, ← exists_or]
      simp only [Matches, or_and_right]
  | star r ih => exact repeated_iff ih hi (by omega)
  | ahead r ih =>
      rw [accepts, Bool.and_eq_true, ih hi]
      simp [Matches, and_assoc]

theorem matchesWhole_iff {r : Pattern α} :
    matchesWhole w r = true ↔ Matches w r 0 w.length := by
  rw [matchesWhole, accepts_iff (Nat.zero_le _)]
  simp

theorem matches_seq_start {s : Pattern α} {j : ℕ} :
    Matches w (seq start s) 0 j ↔ Matches w s 0 j := by
  constructor
  · rintro ⟨_, ⟨-, rfl⟩, h⟩
    exact h
  · exact fun h => ⟨0, ⟨rfl, rfl⟩, h⟩

theorem matches_seq_ahead {r s : Pattern α} {i j : ℕ} :
    Matches w (seq (ahead r) s) i j ↔
      (∃ k, Matches w r i k) ∧ Matches w s i j := by
  constructor
  · rintro ⟨_, ⟨hr, rfl⟩, hs⟩
    exact ⟨hr, hs⟩
  · rintro ⟨hr, hs⟩
    exact ⟨i, ⟨hr, rfl⟩, hs⟩

end Matches

/-! ## Classes

Repetitions of a single class, read off the word. -/

section Classes

variable {w : List α} {p q : α → Bool} {i j : ℕ}

/-- The letters from `i` on and before `j` are in the class. -/
def Within (w : List α) (p : α → Bool) (i j : ℕ) : Prop :=
  ∀ k, i ≤ k → k < j → (w[k]?).any p = true

theorem within_succ (hij : i ≤ j) :
    Within w p i (j + 1) ↔ Within w p i j ∧ (w[j]?).any p = true := by
  constructor
  · intro h
    exact ⟨fun k hik hkj => h k hik (by omega), h j hij (Nat.lt_succ_self j)⟩
  · rintro ⟨h, hj⟩ k hik hkj
    rcases Nat.lt_succ_iff_lt_or_eq.mp hkj with hlt | rfl
    · exact h k hik hlt
    · exact hj

theorem within_whole : Within w p 0 w.length ↔ ∀ a ∈ w, p a = true := by
  constructor
  · intro h a ha
    obtain ⟨k, hk⟩ := List.mem_iff_getElem?.mp ha
    have hlt := (List.getElem?_eq_some_iff.mp hk).1
    simpa [hk] using h k (Nat.zero_le k) hlt
  · intro h k _ hk
    rw [List.getElem?_eq_getElem hk]
    exact h _ (List.getElem_mem hk)

theorem matches_star_one :
    Matches w (star (one p)) i j ↔ i ≤ j ∧ Within w p i j := by
  constructor
  · intro h
    induction h with
    | refl => exact ⟨Nat.le_refl i, fun k hik hki => absurd hki (by omega)⟩
    | tail _ hm ih =>
        obtain ⟨rfl, hany⟩ := hm
        exact ⟨Nat.le_succ_of_le ih.1, (within_succ ih.1).mpr ⟨ih.2, hany⟩⟩
  · rintro ⟨hij, h⟩
    induction hij with
    | refl => exact .refl
    | step hle ih =>
        obtain ⟨hbefore, hany⟩ := (within_succ hle).mp h
        exact .tail (ih hbefore) ⟨rfl, hany⟩

theorem matches_atLeast_one {n : ℕ} :
    Matches w (atLeast n (one p)) i j ↔ i + n ≤ j ∧ Within w p i j := by
  induction n generalizing i with
  | zero => exact matches_star_one
  | succ n ih =>
      constructor
      · rintro ⟨_, ⟨rfl, hany⟩, hrest⟩
        obtain ⟨hle, h⟩ := ih.mp hrest
        refine ⟨by omega, fun k hik hkj => ?_⟩
        rcases Nat.lt_or_eq_of_le hik with hlt | rfl
        · exact h k hlt hkj
        · exact hany
      · rintro ⟨hle, h⟩
        refine ⟨i + 1, ⟨rfl, h i (Nat.le_refl i) (by omega)⟩, ih.mpr ?_⟩
        exact ⟨by omega, fun k hik hkj => h k (by omega) hkj⟩

/-- At least `n` letters, and all of the class. -/
theorem matches_atLeast_whole {n : ℕ} :
    Matches w (atLeast n (one p)) 0 w.length ↔
      n ≤ w.length ∧ ∀ a ∈ w, p a = true := by
  rw [matches_atLeast_one, Nat.zero_add, within_whole]

/-- Behind any number of letters of a class the whole word is in, one of
another class: the word has a letter of that other class. -/
theorem exists_matches_star_one (hq : ∀ a ∈ w, q a = true) :
    (∃ k, Matches w (seq (star (one q)) (one p)) 0 k) ↔
      ∃ a ∈ w, p a = true := by
  constructor
  · rintro ⟨_, m, -, rfl, hany⟩
    obtain ⟨a, ha, hp⟩ := (Option.any_eq_true _ _).mp hany
    exact ⟨a, List.mem_of_getElem? ha, hp⟩
  · rintro ⟨a, ha, hp⟩
    obtain ⟨m, hm⟩ := List.mem_iff_getElem?.mp ha
    have hlt := (List.getElem?_eq_some_iff.mp hm).1
    have hwithin : Within w q 0 m := fun k hk hkm =>
      within_whole.mpr hq k hk (by omega)
    refine ⟨m + 1, m, matches_star_one.mpr ⟨Nat.zero_le m, hwithin⟩, rfl, ?_⟩
    rw [hm]
    exact hp

end Classes

end Regex
