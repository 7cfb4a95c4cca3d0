import PhoRent.App.PersonalView
import PhoRent.Lib.Mask

/-!
# The phone field is formatted, and full at seventeen characters

The loop of `formattedNumber` fills the mask with the digits of the string, and
the mask has eleven slots and ends in one. So the digits can be read back, all
that matter, and formatting what is formatted already, with something typed
behind it, is formatting the whole.

How long the result is depends on the number of digits alone, and it is as long
as the mask only with all eleven. That is why the presenter can go by the
length of what is in the field, which is formatted from the first edit on.
-/

namespace PhoRent

namespace PersonalViewController

def isX (ch : Char) : Bool := ch == 'X'

def digits (s : String) : List Char := s.toList.filter Unicode.decimalDigit

section Mask

theorem countP_mask : mask.countP isX = 11 := by decide

theorem endsInSlot_mask : Mask.EndsInSlot isX mask := by
  have hlast : mask.getLast? = some 'X' := by decide
  intro c hc
  rw [hlast] at hc
  obtain rfl := Option.some.inj hc
  rfl

theorem literal_mask : ∀ c ∈ mask, isX c = false →
    Unicode.decimalDigit c = false := by
  have hmask : mask.all (fun c => isX c || !Unicode.decimalDigit c) = true := by
    decide
  intro c hc hX
  have hdigit := List.all_eq_true.mp hmask c hc
  rwa [hX, Bool.false_or, Bool.not_eq_true'] at hdigit

/-- The mask is used up with the eleventh digit, and not before. -/
theorem length_upTo_mask :
    ∀ n ≤ 11, (Mask.upTo isX mask n).length = 17 ↔ n = 11 := by
  decide

end Mask

section Format

theorem flatten_splitOnP {α : Type} (p : α → Bool) (l : List α) :
    (l.splitOnP p).flatten = l.filter fun a => !p a := by
  induction l with
  | nil => rfl
  | cons a l ih =>
      rw [List.splitOnP_cons_eq_if_modifyHead]
      by_cases ha : p a = true
      · rw [if_pos ha, List.filter_cons_of_neg (by simp [ha])]
        exact ih
      · obtain ⟨piece, pieces, hpieces⟩ :=
          List.exists_cons_of_ne_nil (List.splitOnP_ne_nil p l)
        rw [if_neg ha, List.filter_cons_of_pos (by simp [ha]), ← ih, hpieces]
        rfl

theorem cleanPhoneNumber_eq (number : String) :
    cleanPhoneNumber number = digits number := by
  rw [cleanPhoneNumber, flatten_splitOnP, digits]
  simp only [Bool.not_not]

/-- The loop appends the filled mask to what it began with. -/
theorem forMask_eq (result digits mask : List Char) :
    forMask result digits mask = result ++ Mask.fill isX mask digits := by
  induction mask generalizing result digits with
  | nil => rw [forMask, Mask.fill, List.append_nil]
  | cons ch rest ih =>
      cases digits with
      | nil =>
          rw [forMask]
          simp only [ih, Mask.fill_nil_right]
      | cons digit digits =>
          rw [forMask]
          simp only [ih, Mask.fill, isX, beq_iff_eq]
          split
          · rw [List.append_assoc]; rfl
          · rw [List.append_assoc]; rfl

theorem toList_formattedNumber (s : String) :
    (formattedNumber s).toList = Mask.fill isX mask (digits s) := by
  rw [formattedNumber, String.toList_ofList, cleanPhoneNumber_eq, forMask_eq,
    List.nil_append]

theorem digits_formattedNumber (s : String) :
    digits (formattedNumber s) = (digits s).take 11 := by
  rw [digits, toList_formattedNumber, Mask.filter_fill literal_mask,
    countP_mask]
  exact fun d hd => (List.mem_filter.mp hd).2

/-- Formatting looks at no more than the first eleven digits. -/
theorem formattedNumber_congr {s t : String}
    (h : (digits s).take 11 = (digits t).take 11) :
    formattedNumber s = formattedNumber t := by
  have hmask := Nat.le_of_eq countP_mask
  rw [← String.toList_inj, toList_formattedNumber, toList_formattedNumber,
    ← Mask.fill_take endsInSlot_mask (digits s) hmask, h,
    Mask.fill_take endsInSlot_mask (digits t) hmask]

theorem formats_formattedNumber (s : String) :
    Mask.Formats isX mask ((digits s).take 11) (formattedNumber s).toList := by
  rw [toList_formattedNumber,
    ← Mask.fill_take endsInSlot_mask (digits s) (Nat.le_of_eq countP_mask)]
  refine Mask.formats_fill ?_
  rw [countP_mask, List.length_take]
  exact Nat.min_le_left 11 _

theorem formattedNumber_ends (s : String) :
    formattedNumber s = "" ∨
      ∃ d, (formattedNumber s).toList.getLast? = some d ∧
        Unicode.decimalDigit d = true := by
  cases hlast : (formattedNumber s).toList.getLast? with
  | none =>
      rw [List.getLast?_eq_none_iff] at hlast
      exact .inl (String.toList_eq_nil_iff.mp hlast)
  | some d =>
      rw [toList_formattedNumber] at hlast
      have hd := Mask.mem_of_getLast?_fill endsInSlot_mask hlast
      exact .inr ⟨d, rfl, (List.mem_filter.mp hd).2⟩

theorem formattedNumber_append (s t : String) :
    formattedNumber (formattedNumber s ++ t) = formattedNumber (s ++ t) := by
  refine formattedNumber_congr ?_
  have happend (a : String) : digits (a ++ t) = digits a ++ digits t := by
    rw [digits, String.toList_append, List.filter_append]
    rfl
  rw [happend, happend, digits_formattedNumber, List.take_append,
    List.take_append, List.take_take, Nat.min_self, List.length_take]
  congr 2
  omega

theorem length_formattedNumber (s : String) :
    (formattedNumber s).length = 17 ↔
      (digits (formattedNumber s)).length = 11 := by
  have hle : ((digits s).take 11).length ≤ 11 := by
    rw [List.length_take]
    exact Nat.min_le_left 11 _
  have hfills : Mask.Fills isX (Mask.upTo isX mask ((digits s).take 11).length)
      ((digits s).take 11) (Mask.fill isX mask ((digits s).take 11)) :=
    Mask.fills_upTo (Nat.le_trans hle (Nat.le_of_eq countP_mask.symm))
  rw [Mask.fill_take endsInSlot_mask _ (Nat.le_of_eq countP_mask),
    ← toList_formattedNumber] at hfills
  rw [digits_formattedNumber, ← length_upTo_mask _ hle, ← hfills.length_eq,
    String.length_toList]

end Format

open Machine in
/-- Whatever is typed, pasted or deleted, the field is empty or formatted. -/
theorem text_of_run {field : PhoneField}
    (h : Run textField (fun _ _ => True) .fresh field) :
    ∃ text, field.text = some text ∧
      (text = "" ∨ ∃ number, text = formattedNumber number) := by
  refine Run.invariant (I := fun field => ∃ text, field.text = some text ∧
    (text = "" ∨ ∃ number, text = formattedNumber number)) ?_ h
    ⟨"", rfl, .inl rfl⟩
  rintro field edit field' ⟨text, htext, -⟩ - he
  simp only [textField, htext, Option.map_eq_some_iff] at he
  obtain ⟨newString, -, rfl⟩ := he
  exact ⟨_, rfl, .inr ⟨newString, rfl⟩⟩

theorem checkPhone_eq_setPhone {phone : Option String} {text : String}
    (h : phone = some text) :
    PersonalPresenter.checkPhone phone = some (.setPhone text) ↔
      text.length = 17 := by
  subst h
  rw [PersonalPresenter.checkPhone]
  split
  · next hlen => exact iff_of_true rfl hlen
  · next hlen => exact iff_of_false (by simp) hlen

open Machine in
/-- The formatted number is the shortest prefix of the mask with room for the
digits, typing goes on from it as from what was typed, and the presenter sends
off what is in the field exactly when it is full. -/
theorem phone_formatted :
    (∀ s, Mask.Formats isX mask ((digits s).take 11)
        (formattedNumber s).toList ∧
      (formattedNumber s = "" ∨
        ∃ d, (formattedNumber s).toList.getLast? = some d ∧
          Unicode.decimalDigit d = true)) ∧
    (∀ s t, formattedNumber (formattedNumber s ++ t) =
      formattedNumber (s ++ t)) ∧
    ∀ field, Run textField (fun _ _ => True) .fresh field →
      ∃ text, field.text = some text ∧
        (text = "" ∨ ∃ number, text = formattedNumber number) ∧
        (PersonalPresenter.checkPhone field.text = some (.setPhone text) ↔
          (digits text).length = 11) := by
  refine ⟨fun s => ⟨formats_formattedNumber s, formattedNumber_ends s⟩,
    formattedNumber_append, fun field h => ?_⟩
  obtain ⟨text, htext, hform⟩ := text_of_run h
  refine ⟨text, htext, hform, (checkPhone_eq_setPhone htext).trans ?_⟩
  rcases hform with rfl | ⟨number, rfl⟩
  · decide
  · exact length_formattedNumber number

def pasteAndType : List PhoneEdit :=
  [⟨⟨0, 0⟩, "+8 912 345 67 89"⟩, ⟨⟨17, 0⟩, "0"⟩]

open Machine in
theorem phone_formatted_paste :
    ∃ field, Run textField (fun _ _ => True) .fresh field ∧
      field.text = some "8 (912) 345-67-89" ∧
      PersonalPresenter.checkPhone field.text =
        some (.setPhone "8 (912) 345-67-89") := by
  have hplay : ∃ field, Run textField (fun _ _ => True) .fresh field ∧
      field.text = some "8 (912) 345-67-89" :=
    exists_run_of_play pasteAndType (by decide +kernel)
  obtain ⟨field, hrun, htext⟩ := hplay
  obtain ⟨text, hfield, -, hsent⟩ := phone_formatted.2.2 field hrun
  obtain rfl := Option.some.inj (htext.symm.trans hfield)
  exact ⟨field, hrun, htext, hsent.mpr (by decide)⟩

end PersonalViewController

end PhoRent
