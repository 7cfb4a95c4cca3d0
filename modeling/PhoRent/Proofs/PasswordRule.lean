import Mathlib.Tactic.ByContra
import PhoRent.App.SignUpView

/-!
# The password rule takes a small d for a symbol

Read as positions, the pattern is four conditions on the whole word in front of
a repetition that has to reach its end. The repetition keeps every character in
the class of a password, so no look-ahead meets the end of a line, and each of
the four only asks whether a character of its class occurs.

The class of a password is what it is meant to be: the `d` in it is a letter
anyway. The fourth look-ahead has a `d` as well, and there it is one symbol too
many. What that lets through is exactly the passwords with a small d and no
symbol that are otherwise in order.
-/

namespace PhoRent

namespace SignUpViewController

open Regex

def Lower (c : Char) : Prop := 'a' ≤ c ∧ c ≤ 'z'

def Upper (c : Char) : Prop := 'A' ≤ c ∧ c ≤ 'Z'

def Digit (c : Char) : Prop := Unicode.decimalDigit c = true

def Symbol (c : Char) : Prop :=
  c ∈ ['$', '@', '!', '%', '*', '?', '&', '_', '#']

/-- What is asked of a password besides a symbol. None of these characters
combines with another, so the length of the string is their number. -/
structure Sound (p : String) : Prop where
  length : 8 ≤ p.length
  letters : ∀ c ∈ p.toList, Lower c ∨ Upper c ∨ Digit c ∨ Symbol c
  lower : ∃ c ∈ p.toList, Lower c
  upper : ∃ c ∈ p.toList, Upper c
  digit : ∃ c ∈ p.toList, Digit c

structure Strong (p : String) : Prop extends Sound p where
  symbol : ∃ c ∈ p.toList, Symbol c

section Classes

variable {c : Char}

theorem range_iff {lower upper : Char} :
    range lower upper c = true ↔ lower ≤ c ∧ c ≤ upper := by
  rw [range, Bool.and_eq_true, decide_eq_true_eq, decide_eq_true_eq]

theorem contains_iff_of_same {l m : List Char}
    (h : (l.all m.contains && m.all l.contains) = true) :
    l.contains c = true ↔ c ∈ m := by
  obtain ⟨hlm, hml⟩ := Bool.and_eq_true_iff.mp h
  rw [List.contains_iff_mem]
  constructor
  · exact fun hc => List.contains_iff_mem.mp (List.all_eq_true.mp hlm c hc)
  · exact fun hc => List.contains_iff_mem.mp (List.all_eq_true.mp hml c hc)

/-- The `d` is there as a letter already, and one `$` is enough. -/
theorem passwordClass_iff :
    passwordClass c = true ↔ Lower c ∨ Upper c ∨ Digit c ∨ Symbol c := by
  have hlist : ['d', '$', '@', '$', '!', '%', '*', '?', '&', '_', '#'].contains c
      = true ↔ c ∈ ['d', '$', '@', '!', '%', '*', '?', '&', '_', '#'] :=
    contains_iff_of_same (by decide)
  rw [passwordClass, Bool.or_eq_true, Bool.or_eq_true, Bool.or_eq_true,
    range_iff, range_iff, hlist, List.mem_cons]
  constructor
  · rintro (((hu | hl) | hd) | rfl | hs)
    · exact .inr (.inl hu)
    · exact .inl hl
    · exact .inr (.inr (.inl hd))
    · exact .inl ⟨by decide, by decide⟩
    · exact .inr (.inr (.inr hs))
  · rintro (hl | hu | hd | hs)
    · exact .inl (.inl (.inr hl))
    · exact .inl (.inl (.inl hu))
    · exact .inl (.inr hd)
    · exact .inr (.inr hs)

/-- The class of the fourth look-ahead has the symbols, and `d`. -/
theorem symbolClass_iff : symbolClass c = true ↔ c = 'd' ∨ Symbol c := by
  have hlist : symbolClass c = true ↔
      c ∈ ['d', '$', '@', '!', '%', '*', '?', '&', '_', '#'] :=
    contains_iff_of_same (by decide)
  rw [hlist, List.mem_cons, Symbol]

/-- A password has no second line. -/
theorem dot_of_passwordClass (h : passwordClass c = true) : dot c = true := by
  have hends : lineTerminators.all (fun a => !passwordClass a) = true := by
    decide
  rw [dot, Bool.not_eq_true', List.contains_eq_mem, decide_eq_false_iff_not]
  intro hc
  have hnot := List.all_eq_true.mp hends c hc
  rw [h] at hnot
  cases hnot

end Classes

/-- What the pattern asks for, without a pattern. -/
theorem isValidPassword_iff {p : String} :
    isValidPassword p = true ↔
      Sound p ∧ ∃ c ∈ p.toList, c = 'd' ∨ Symbol c := by
  rw [isValidPassword, matchesWhole_iff, passwRegEx, matches_seq_start]
  simp only [lookAhead, matches_seq_ahead, matches_atLeast_whole]
  -- all look-aheads are read under what the repetition says of every character
  have hclass (hall : ∀ c ∈ p.toList, passwordClass c = true)
      (q : Char → Bool) :=
    exists_matches_star_one (p := q) fun c hc => dot_of_passwordClass (hall c hc)
  constructor
  · rintro ⟨hl, hu, hd, hs, hlen, hall⟩
    rw [hclass hall] at hl hu hd hs
    simp only [range_iff] at hl hu
    simp only [symbolClass_iff] at hs
    exact ⟨⟨hlen, fun c hc => passwordClass_iff.mp (hall c hc), hl, hu, hd⟩, hs⟩
  · rintro ⟨⟨hlen, hletters, hl, hu, hd⟩, hs⟩
    have hall : ∀ c ∈ p.toList, passwordClass c = true :=
      fun c hc => passwordClass_iff.mpr (hletters c hc)
    simp only [hclass hall, range_iff, symbolClass_iff]
    exact ⟨hl, hu, hd, hs, hlen, hall⟩

/-- Neither rule lets the empty text through, so what comes after them is only
about the username. -/
theorem signUp_of_validation {username email password : String}
    (h : validation email password = true) :
    signUp username email password =
      if username = "" then .showAlert
      else .signUpUser username email password := by
  have hempty : isValidEmail "" = false ∧ isValidPassword "" = false := by
    decide
  have hboth := Bool.and_eq_true_iff.mp h
  have hemail : email ≠ "" := by
    rintro rfl
    rw [hempty.1] at hboth
    cases hboth.1
  have hpassword : password ≠ "" := by
    rintro rfl
    rw [hempty.2] at hboth
    cases hboth.2
  rw [signUp, if_pos h]
  by_cases hname : username = ""
  · rw [if_neg fun hall => hall.1 hname, if_pos hname]
  · rw [if_pos ⟨hname, hemail, hpassword⟩, if_neg hname]

/-- The rule accepts a password exactly when it is strong, unless the password
is in order but for a symbol and has a small d. -/
theorem isValidPassword_strong_iff (p : String) :
    (isValidPassword p = true ↔ Strong p) ↔
      (∃ c ∈ p.toList, Symbol c) ∨ 'd' ∉ p.toList ∨ ¬ Sound p := by
  rw [isValidPassword_iff]
  constructor
  · intro h
    by_contra hnot
    rw [not_or, not_or, not_not, not_not] at hnot
    obtain ⟨hnone, hd, hsound⟩ := hnot
    exact hnone (h.mp ⟨hsound, 'd', hd, .inl rfl⟩).symbol
  · intro hcond
    constructor
    · rintro ⟨hsound, c, hc, rfl | hs⟩
      · rcases hcond with hsymbol | hd | hbad
        · exact ⟨hsound, hsymbol⟩
        · exact absurd hc hd
        · exact absurd hsound hbad
      · exact ⟨hsound, c, hc, hs⟩
    · rintro ⟨hsound, c, hc, hs⟩
      exact ⟨hsound, c, hc, .inr hs⟩

/-- Eight characters, with letters of both kinds and a digit. -/
theorem isValidPassword_strong_fails :
    isValidPassword "Abcdefg1" = true ∧ ¬ Strong "Abcdefg1" := by
  refine ⟨by decide, fun h => ?_⟩
  obtain ⟨c, hc, hs⟩ := h.symbol
  have hnone : "Abcdefg1".toList.all (fun c =>
      !(['$', '@', '!', '%', '*', '?', '&', '_', '#'].contains c)) = true := by
    decide
  have hnot := List.all_eq_true.mp hnone c hc
  rw [List.contains_iff_mem.mpr hs] at hnot
  cases hnot

end SignUpViewController

end PhoRent
