import Mathlib.Data.List.DropRight
import PhoRent.App.AuthForms
import PhoRent.Lib.RegexLanguage
import PhoRent.Proofs.PasswordRule

/-!
# What an email address is to the forms

The pattern for emails is a plain one, so what it accepts is a language, and the
words of it are taken apart at the `@` and at the last dot. There is one way to
do that: no `@` is in any of the classes, and no dot is in the last one, while
the classes before it may have dots as they like.

A blank is in no class either. So it makes no difference to an address whether
the blanks around it are taken off as far as they go, and the form for a new
password sends off the address that is in the field, or nothing.
-/

namespace PhoRent

namespace SignUpViewController

open Regex

/-- `0` to `9`. The other decimal digits are for passwords only. -/
def Numeral (c : Char) : Prop := '0' ≤ c ∧ c ≤ '9'

/-- What is in front of the `@`. -/
def NameLetter (c : Char) : Prop :=
  Upper c ∨ Numeral c ∨ Lower c ∨ c ∈ ['.', '_', '%', '+', '-']

/-- What is behind it. -/
def DomainLetter (c : Char) : Prop :=
  Upper c ∨ Lower c ∨ Numeral c ∨ c ∈ ['.', '-']

@[ext]
structure Address where
  name : List Char
  domain : List Char
  top : List Char
  name_pos : 1 ≤ name.length
  name_letters : ∀ c ∈ name, NameLetter c
  domain_pos : 1 ≤ domain.length
  domain_letters : ∀ c ∈ domain, DomainLetter c
  two_le_top : 2 ≤ top.length
  top_le : top.length ≤ 64
  top_letters : ∀ c ∈ top, Upper c ∨ Lower c

namespace Address

def letters (a : Address) : List Char :=
  a.name ++ '@' :: (a.domain ++ '.' :: a.top)

def text (a : Address) : String := .ofList a.letters

@[simp] theorem toList_text (a : Address) : a.text.toList = a.letters :=
  String.toList_ofList

end Address

section Classes

variable {c : Char}

theorem nameClass_iff :
    (range 'A' 'Z' c || range '0' '9' c || range 'a' 'z' c ||
      ['.', '_', '%', '+', '-'].contains c) = true ↔ NameLetter c := by
  simp only [Bool.or_eq_true, range_iff, List.contains_iff_mem, or_assoc,
    NameLetter, Upper, Numeral, Lower]

theorem domainClass_iff :
    (range 'A' 'Z' c || range 'a' 'z' c || range '0' '9' c ||
      ['.', '-'].contains c) = true ↔ DomainLetter c := by
  simp only [Bool.or_eq_true, range_iff, List.contains_iff_mem, or_assoc,
    DomainLetter, Upper, Numeral, Lower]

theorem topClass_iff :
    (range 'A' 'Z' c || range 'a' 'z' c) = true ↔ Upper c ∨ Lower c := by
  rw [Bool.or_eq_true, range_iff, range_iff, Upper, Lower]

theorem DomainLetter.of_top (h : Upper c ∨ Lower c) : DomainLetter c :=
  h.elim Or.inl fun hl => Or.inr (Or.inl hl)

theorem NameLetter.of_domain (h : DomainLetter c) : NameLetter c := by
  rcases h with hu | hl | hn | hc
  · exact .inl hu
  · exact .inr (.inr (.inl hl))
  · exact .inr (.inl hn)
  · refine .inr (.inr (.inr ?_))
    rcases List.mem_pair.mp hc with rfl | rfl <;> decide

end Classes

theorem plain_emailRegEx : emailRegEx.Plain :=
  ⟨Pattern.Plain.atLeast trivial, trivial, Pattern.Plain.atLeast trivial,
    trivial, Pattern.Plain.between trivial⟩

/-! ## Taking an address apart -/

/-- A list is cut in one way in front of the last of its separators. -/
theorem append_cons_inj_of_last {α : Type} {x x' z z' : List α} {a : α}
    (hz : a ∉ z) (hz' : a ∉ z') (h : x ++ a :: z = x' ++ a :: z') :
    x = x' ∧ z = z' := by
  rcases List.append_eq_append_iff.mp h with ⟨y, rfl, hy⟩ | ⟨y, rfl, hy⟩
  · cases y with
    | nil =>
        obtain ⟨-, rfl⟩ := List.cons.inj hy
        exact ⟨(List.append_nil x).symm, rfl⟩
    | cons b y =>
        obtain ⟨-, rfl⟩ := List.cons.inj hy
        exact absurd (List.mem_append_right y List.mem_cons_self) hz
  · cases y with
    | nil =>
        obtain ⟨-, rfl⟩ := List.cons.inj hy
        exact ⟨List.append_nil x', rfl⟩
    | cons b y =>
        obtain ⟨-, rfl⟩ := List.cons.inj hy
        exact absurd (List.mem_append_right y List.mem_cons_self) hz'

namespace Address

theorem letters_ne_nil (a : Address) : a.letters ≠ [] :=
  List.append_ne_nil_of_right_ne_nil _ (List.cons_ne_nil _ _)

theorem text_ne_empty (a : Address) : a.text ≠ "" := fun h =>
  a.letters_ne_nil (String.ofList_injective h)

theorem at_notMem_name (a : Address) : '@' ∉ a.name := by
  have hat : ¬ NameLetter '@' := by
    unfold NameLetter Upper Numeral Lower; decide
  exact fun h => hat (a.name_letters _ h)

theorem at_notMem_domain (a : Address) : '@' ∉ a.domain ++ '.' :: a.top := by
  have hat : ¬ DomainLetter '@' := by
    unfold DomainLetter Upper Numeral Lower; decide
  intro h
  rw [List.mem_append, List.mem_cons] at h
  rcases h with hdomain | hdot | htop
  · exact hat (a.domain_letters _ hdomain)
  · exact absurd hdot (by decide)
  · exact hat (.of_top (a.top_letters _ htop))

theorem dot_notMem_top (a : Address) : '.' ∉ a.top := by
  have hdot : ¬ (Upper '.' ∨ Lower '.') := by unfold Upper Lower; decide
  exact fun h => hdot (a.top_letters _ h)

theorem text_injective : Function.Injective text := by
  intro a b h
  have hletters : a.letters = b.letters := String.ofList_injective h
  obtain ⟨hname, -, hrest⟩ := (List.append_cons_inj_of_notMem
    a.at_notMem_name a.at_notMem_domain).mp hletters
  obtain ⟨hdomain, htop⟩ :=
    append_cons_inj_of_last a.dot_notMem_top b.dot_notMem_top hrest
  exact Address.ext hname hdomain htop

end Address

theorem mem_language_emailRegEx {u : List Char} :
    u ∈ language emailRegEx ↔ ∃ a : Address, a.letters = u := by
  rw [emailRegEx]
  constructor
  · intro hu
    obtain ⟨name, hname, _, hv, rfl⟩ := mem_language_seq.mp hu
    obtain ⟨_, _, hat, hrest, rfl⟩ := mem_language_one_seq.mp hv
    obtain ⟨domain, hdomain, _, hend, rfl⟩ := mem_language_seq.mp hrest
    obtain ⟨_, top, hdot, htop, rfl⟩ := mem_language_one_seq.mp hend
    obtain rfl := beq_iff_eq.mp hat
    obtain rfl := beq_iff_eq.mp hdot
    simp only [mem_language_atLeast_one, mem_language_between_one,
      nameClass_iff, domainClass_iff, topClass_iff] at hname hdomain htop
    exact ⟨⟨name, domain, top, hname.1, hname.2, hdomain.1, hdomain.2,
      htop.1, htop.2.1, htop.2.2⟩, rfl⟩
  · rintro ⟨a, rfl⟩
    refine mem_language_seq.mpr ⟨a.name, ?_, _, ?_, rfl⟩
    · simp only [mem_language_atLeast_one, nameClass_iff]
      exact ⟨a.name_pos, a.name_letters⟩
    refine mem_language_one_seq.mpr ⟨'@', _, rfl, ?_, rfl⟩
    refine mem_language_seq.mpr ⟨a.domain, ?_, _, ?_, rfl⟩
    · simp only [mem_language_atLeast_one, domainClass_iff]
      exact ⟨a.domain_pos, a.domain_letters⟩
    refine mem_language_one_seq.mpr ⟨'.', a.top, rfl, ?_, rfl⟩
    simp only [mem_language_between_one, topClass_iff]
    exact ⟨a.two_le_top, a.top_le, a.top_letters⟩

theorem isValidEmail_iff {email : String} :
    isValidEmail email = true ↔ ∃ a : Address, a.text = email := by
  rw [isValidEmail, matchesWhole_iff_mem plain_emailRegEx,
    mem_language_emailRegEx]
  refine exists_congr fun a => ?_
  rw [Address.text, String.ofList_eq]

end SignUpViewController

/-! ## Blanks around it -/

namespace PasswordDropViewController

open SignUpViewController

theorem toList_trimmingCharacters (p : Char → Bool) (s : String) :
    (trimmingCharacters p s).toList = (s.toList.dropWhile p).rdropWhile p := by
  rw [trimmingCharacters, String.toList_ofList, List.rdropWhile]

section Trim

variable {α : Type} {p : α → Bool} {before mid after : List α}

theorem dropWhile_append_append (hbefore : ∀ a ∈ before, p a = true)
    (hne : mid ≠ []) (hmid : ∀ a ∈ mid, p a = false) :
    (before ++ (mid ++ after)).dropWhile p = mid ++ after := by
  obtain ⟨a, m, rfl⟩ := List.exists_cons_of_ne_nil hne
  have ha := hmid a List.mem_cons_self
  rw [List.dropWhile_append_of_pos hbefore, List.cons_append,
    List.dropWhile_cons_of_neg (by rw [ha]; exact Bool.false_ne_true)]

theorem trim_append_append (hbefore : ∀ a ∈ before, p a = true)
    (hafter : ∀ a ∈ after, p a = true) (hne : mid ≠ [])
    (hmid : ∀ a ∈ mid, p a = false) :
    ((before ++ (mid ++ after)).dropWhile p).rdropWhile p = mid := by
  have hback : (after.reverse ++ (mid.reverse ++ [])).dropWhile p =
      mid.reverse ++ [] :=
    dropWhile_append_append (fun a ha => hafter a (List.mem_reverse.mp ha))
      (fun h => hne (List.reverse_eq_nil_iff.mp h))
      fun a ha => hmid a (List.mem_reverse.mp ha)
  rw [dropWhile_append_append hbefore hne hmid, List.rdropWhile,
    List.reverse_append, ← List.append_nil mid.reverse, hback,
    List.append_nil, List.reverse_reverse]

theorem exists_trim (p : α → Bool) (l : List α) : ∃ before after,
    (∀ a ∈ before, p a = true) ∧ (∀ a ∈ after, p a = true) ∧
      l = before ++ ((l.dropWhile p).rdropWhile p ++ after) := by
  refine ⟨l.takeWhile p, (l.dropWhile p).rtakeWhile p,
    fun a => List.mem_takeWhile_imp, fun a => List.mem_rtakeWhile_imp, ?_⟩
  rw [List.rdropWhile_append_rtakeWhile, List.takeWhile_append_dropWhile]

end Trim

theorem blank_of_nameLetter {c : Char} (h : NameLetter c) :
    Unicode.blank c = false := by
  rw [Bool.eq_false_iff]
  intro hblank
  have hmem := List.contains_iff_mem.mp hblank
  have hnone := List.all_eq_true (p := fun n => !(
    range 'A' 'Z' (Char.ofNat n) || range '0' '9' (Char.ofNat n) ||
      range 'a' 'z' (Char.ofNat n) ||
      ['.', '_', '%', '+', '-'].contains (Char.ofNat n))) |>.mp (by decide)
    c.toNat hmem
  rw [Char.ofNat_toNat, nameClass_iff.mpr h] at hnone
  cases hnone

theorem blank_of_mem_letters (a : Address) :
    ∀ c ∈ a.letters, Unicode.blank c = false := by
  intro c hc
  rw [Address.letters, List.mem_append, List.mem_cons, List.mem_append,
    List.mem_cons] at hc
  rcases hc with hname | rfl | hdomain | rfl | htop
  · exact blank_of_nameLetter (a.name_letters c hname)
  · decide
  · exact blank_of_nameLetter (.of_domain (a.domain_letters c hdomain))
  · decide
  · exact blank_of_nameLetter
      (.of_domain (.of_top (a.top_letters c htop)))

/-- What is in the field when `e` is between blanks in it. -/
def Within (text e : String) : Prop :=
  ∃ before after, (∀ c ∈ before, Unicode.blank c = true) ∧
    (∀ c ∈ after, Unicode.blank c = true) ∧
    text.toList = before ++ (e.toList ++ after)

theorem dropPassword_iff {text e : String} :
    dropPassword (some text) = .passwordDrop (some e) ↔
      trimmingCharacters Unicode.blank text = e ∧ isValidEmail e = true := by
  rw [dropPassword, Option.map_some, Option.getD_some]
  split
  · next hvalid =>
      rw [DropAction.passwordDrop.injEq, Option.some_inj]
      exact ⟨fun h => ⟨h, h ▸ hvalid⟩, And.left⟩
  · next hvalid =>
      refine iff_of_false DropAction.noConfusion ?_
      rintro ⟨rfl, hvalid'⟩
      exact hvalid hvalid'

theorem exists_of_passwordDrop {text email : Option String}
    (h : dropPassword text = .passwordDrop email) :
    ∃ a : Address, some a.text = email := by
  cases text with
  | none =>
      have hnone : dropPassword none = .showWrongFormat := by decide
      rw [hnone] at h
      cases h
  | some text =>
      rw [dropPassword, Option.map_some, Option.getD_some] at h
      split at h
      · next hvalid =>
          obtain rfl := DropAction.passwordDrop.inj h
          obtain ⟨a, ha⟩ := isValidEmail_iff.mp hvalid
          exact ⟨a, congrArg some ha⟩
      · cases h

/-- To an address, the blanks that are taken off are all there are. -/
theorem trimmingCharacters_eq_text (text : String) (a : Address) :
    trimmingCharacters Unicode.blank text = a.text ↔ Within text a.text := by
  rw [← String.toList_inj, toList_trimmingCharacters, Within,
    Address.toList_text]
  constructor
  · intro h
    rw [← h]
    exact exists_trim Unicode.blank text.toList
  · rintro ⟨before, after, hbefore, hafter, htext⟩
    rw [htext]
    exact trim_append_append hbefore hafter a.letters_ne_nil
      (blank_of_mem_letters a)

/-- The rule for emails accepts what can be taken apart into an address, and
that in one way. The form for a new password sends off an address exactly if it
is what stands in the field, with blanks or nothing around it. -/
theorem address_iff :
    (∀ email, SignUpViewController.isValidEmail email = true ↔
      ∃! a : Address, a.text = email) ∧
    ∀ text e, dropPassword (some text) = .passwordDrop (some e) ↔
      (∃! a : Address, a.text = e) ∧ Within text e := by
  have hunique {email : String} : SignUpViewController.isValidEmail email =
      true ↔ ∃! a : Address, a.text = email := by
    rw [isValidEmail_iff]
    constructor
    · rintro ⟨a, rfl⟩
      exact ⟨a, rfl, fun b hb => Address.text_injective hb⟩
    · exact ExistsUnique.exists
  refine ⟨fun email => hunique, fun text e => ?_⟩
  rw [dropPassword_iff]
  constructor
  · rintro ⟨htrim, hvalid⟩
    have haddress : ∃! a : Address, a.text = e := hunique.mp hvalid
    obtain ⟨a, rfl⟩ := haddress.exists
    exact ⟨haddress, (trimmingCharacters_eq_text text a).mp htrim⟩
  · rintro ⟨haddress, hwithin⟩
    obtain ⟨a, rfl⟩ := haddress.exists
    exact ⟨(trimmingCharacters_eq_text text a).mpr hwithin,
      hunique.mpr haddress⟩

/-- A name with a dot and a domain with two, behind a blank. -/
example : dropPassword (some " ann.a@mail.co.uk") =
    .passwordDrop (some "ann.a@mail.co.uk") := by decide

end PasswordDropViewController

end PhoRent
