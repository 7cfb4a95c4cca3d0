import Mathlib.Data.List.TakeDrop

/-!
# Filling a mask

A mask is a list with slots in it. Filled with some letters it is cut off
behind the slot the last of them goes to: nothing stands at the end of the
result that no letter comes after.

`Fills` says what it is for a list to be such a prefix with its slots replaced,
in order, and `Formats` that it is the shortest one with room for all letters.
`fill` is a loop over the mask that produces it.
-/

namespace Mask

variable {α : Type*} (slot : α → Bool)

/-- The mask up to the slot of the last letter, the letters in their slots. -/
def fill : List α → List α → List α
  | [], _ => []
  | _ :: _, [] => []
  | c :: mask, d :: letters =>
      if slot c then d :: fill mask letters else c :: fill mask (d :: letters)

/-- The shortest prefix of the mask with this many slots. -/
def upTo : List α → ℕ → List α
  | [], _ => []
  | _ :: _, 0 => []
  | c :: mask, n + 1 =>
      if slot c then c :: upTo mask n else c :: upTo mask (n + 1)

/-- `out` is `p`, each slot replaced by the next of the letters, and every
letter has one. -/
inductive Fills : List α → List α → List α → Prop
  | nil : Fills [] [] []
  | slot {c d : α} {p letters out : List α} (hc : slot c = true)
      (h : Fills p letters out) : Fills (c :: p) (d :: letters) (d :: out)
  | literal {c : α} {p letters out : List α} (hc : slot c = false)
      (h : Fills p letters out) : Fills (c :: p) letters (c :: out)

/-- `out` is the shortest prefix of the mask with a slot for every letter, the
letters in the slots. -/
def Formats (mask letters out : List α) : Prop :=
  ∃ p, p <+: mask ∧ letters.length ≤ p.countP slot ∧
    (∀ q, q <+: mask → letters.length ≤ q.countP slot →
      p.length ≤ q.length) ∧
    Fills slot p letters out

/-- Nothing in the mask comes after its last slot. -/
def EndsInSlot (mask : List α) : Prop := ∀ c ∈ mask.getLast?, slot c = true

variable {slot}

theorem EndsInSlot.tail {c : α} {mask : List α}
    (h : EndsInSlot slot (c :: mask)) : EndsInSlot slot mask := by
  cases mask with
  | nil => exact fun a ha => absurd ha (by simp)
  | cons b mask =>
      intro a ha
      rw [← List.getLast?_cons_cons (a := c)] at ha
      exact h a ha

theorem EndsInSlot.countP_pos {c : α} {mask : List α}
    (h : EndsInSlot slot (c :: mask)) : 0 < (c :: mask).countP slot := by
  have hlast := List.getLast?_eq_some_getLast (List.cons_ne_nil c mask)
  exact List.countP_pos_iff.mpr ⟨_, List.getLast_mem _, h _ hlast⟩

@[simp] theorem fill_nil_right (mask : List α) : fill slot mask [] = [] := by
  cases mask <;> rfl

theorem fill_take {mask : List α} (hend : EndsInSlot slot mask)
    (letters : List α) {n : ℕ} (hn : mask.countP slot ≤ n) :
    fill slot mask (letters.take n) = fill slot mask letters := by
  induction mask generalizing letters n with
  | nil => rfl
  | cons c mask ih =>
      have hpos := hend.countP_pos
      obtain ⟨n, rfl⟩ := Nat.exists_eq_succ_of_ne_zero (n := n) (by omega)
      cases letters with
      | nil => rw [List.take_nil]
      | cons d letters =>
          rw [List.take_succ_cons, fill, fill]
          by_cases hc : slot c = true
          · rw [List.countP_cons_of_pos hc] at hn
            rw [if_pos hc, if_pos hc, ih hend.tail letters (by omega)]
          · rw [List.countP_cons_of_neg hc] at hn
            rw [if_neg hc, if_neg hc, ← ih hend.tail (d :: letters) hn,
              List.take_succ_cons]

/-- The two loops over the mask keep together. -/
theorem fills_upTo {mask letters : List α}
    (h : letters.length ≤ mask.countP slot) :
    Fills slot (upTo slot mask letters.length) letters
      (fill slot mask letters) := by
  induction mask generalizing letters with
  | nil =>
      obtain rfl := List.eq_nil_of_length_eq_zero (Nat.le_zero.mp h)
      exact .nil
  | cons c mask ih =>
      cases letters with
      | nil => exact .nil
      | cons d letters =>
          rw [List.length_cons] at h ⊢
          rw [upTo, fill]
          by_cases hc : slot c = true
          · rw [List.countP_cons_of_pos hc] at h
            rw [if_pos hc, if_pos hc]
            exact .slot hc (ih (by omega))
          · rw [List.countP_cons_of_neg hc] at h
            have hrest : (d :: letters).length ≤ mask.countP slot := h
            rw [if_neg hc, if_neg hc]
            exact .literal (eq_false_of_ne_true hc) (ih hrest)

theorem upTo_prefix (mask : List α) (n : ℕ) : upTo slot mask n <+: mask := by
  induction mask generalizing n with
  | nil => exact List.prefix_rfl
  | cons c mask ih =>
      cases n with
      | zero => exact List.nil_prefix
      | succ n =>
          rw [upTo]
          split
          · exact List.cons_prefix_cons.mpr ⟨rfl, ih n⟩
          · exact List.cons_prefix_cons.mpr ⟨rfl, ih (n + 1)⟩

/-- No prefix with as many slots is shorter. -/
theorem length_upTo_le {mask q : List α} {n : ℕ} (hq : q <+: mask)
    (hn : n ≤ q.countP slot) : (upTo slot mask n).length ≤ q.length := by
  induction mask generalizing q n with
  | nil => exact Nat.zero_le _
  | cons c mask ih =>
      cases n with
      | zero => exact Nat.zero_le _
      | succ n =>
          obtain ⟨b, q, rfl⟩ := List.exists_cons_of_ne_nil (l := q) (by
            rintro rfl
            cases hn)
          obtain ⟨rfl, hrest⟩ := List.cons_prefix_cons.mp hq
          rw [upTo]
          by_cases hc : slot b = true
          · rw [List.countP_cons_of_pos hc] at hn
            rw [if_pos hc]
            exact Nat.succ_le_succ (ih hrest (by omega))
          · rw [List.countP_cons_of_neg hc] at hn
            rw [if_neg hc]
            exact Nat.succ_le_succ (ih hrest hn)

theorem Fills.countP {p letters out : List α} (h : Fills slot p letters out) :
    p.countP slot = letters.length := by
  induction h with
  | nil => rfl
  | slot hc _ ih => rw [List.countP_cons_of_pos hc, ih, List.length_cons]
  | literal hc _ ih => rw [List.countP_cons_of_neg (by simp [hc]), ih]

theorem Fills.length_eq {p letters out : List α} (h : Fills slot p letters out) :
    out.length = p.length := by
  induction h with
  | nil => rfl
  | slot _ _ ih => exact congrArg (· + 1) ih
  | literal _ _ ih => exact congrArg (· + 1) ih

/-- A mask filled with no more letters than it has slots for. -/
theorem formats_fill {mask letters : List α}
    (h : letters.length ≤ mask.countP slot) :
    Formats slot mask letters (fill slot mask letters) :=
  ⟨upTo slot mask letters.length, upTo_prefix mask _,
    Nat.le_of_eq (fills_upTo h).countP.symm, fun _ hq hn => length_upTo_le hq hn,
    fills_upTo h⟩

/-- The letters come back out, where the mask itself has none. -/
theorem filter_fill {isLetter : α → Bool} {mask letters : List α}
    (hmask : ∀ c ∈ mask, slot c = false → isLetter c = false)
    (hletters : ∀ d ∈ letters, isLetter d = true) :
    (fill slot mask letters).filter isLetter =
      letters.take (mask.countP slot) := by
  induction mask generalizing letters with
  | nil => exact (List.take_zero ..).symm
  | cons c mask ih =>
      have hrest := fun b hb => hmask b (List.mem_cons_of_mem c hb)
      cases letters with
      | nil => rw [fill, List.take_nil, List.filter_nil]
      | cons d letters =>
          rw [fill]
          by_cases hc : slot c = true
          · rw [if_pos hc, List.countP_cons_of_pos hc, List.take_succ_cons,
              List.filter_cons_of_pos (hletters d List.mem_cons_self),
              ih hrest fun a ha => hletters a (List.mem_cons_of_mem d ha)]
          · have hclear := hmask c List.mem_cons_self
              (eq_false_of_ne_true hc)
            rw [if_neg hc, List.countP_cons_of_neg hc,
              List.filter_cons_of_neg (by simp [hclear]), ih hrest hletters]

theorem mem_of_getLast?_fill {mask letters : List α}
    (hend : EndsInSlot slot mask) {a : α}
    (ha : a ∈ (fill slot mask letters).getLast?) : a ∈ letters := by
  induction mask generalizing letters with
  | nil => cases ha
  | cons c mask ih =>
      cases letters with
      | nil => cases ha
      | cons d letters =>
          rw [fill] at ha
          split at ha
          · next hc =>
              cases hrest : fill slot mask letters with
              | nil =>
                  rw [hrest] at ha
                  obtain rfl := Option.some.inj ha
                  exact List.mem_cons_self
              | cons b rest =>
                  rw [hrest, List.getLast?_cons_cons, ← hrest] at ha
                  exact List.mem_cons_of_mem d (ih hend.tail ha)
          · next hc =>
              -- a literal is not the last of the mask, so something follows it
              cases hrest : fill slot mask (d :: letters) with
              | nil =>
                  cases mask with
                  | nil => exact absurd (hend c rfl) hc
                  | cons b mask =>
                      rw [fill] at hrest
                      split at hrest <;> cases hrest
              | cons b rest =>
                  rw [hrest, List.getLast?_cons_cons, ← hrest] at ha
                  exact ih hend.tail ha

end Mask
