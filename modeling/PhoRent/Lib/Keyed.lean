import Mathlib.Algebra.BigOperators.Group.List.Basic
import Mathlib.Data.List.Nodup
import Mathlib.Data.Prod.Lex
import Mathlib.Data.String.Basic

/-!
# Keyed collections

A collection is what a document store keeps under one path: finitely many
documents, each under a key of its own, read back in key order. The list is
the representation and the order is its invariant, carried as a field, so two
collections with the same documents are the same collection and a query
answers them in one order only.

Three things are proved of it. Reading after a write, which is all a frame
condition needs. Totals: any quantity summed over the documents moves by
exactly the document a write touches, which is all a conservation law needs.
And that putting back what is there already changes nothing.
-/

namespace Keyed

variable {κ α : Type*} [LinearOrder κ]

/-- Ordered insertion, replacing what is under the key already. -/
def insertAt (k : κ) (a : α) : List (κ × α) → List (κ × α)
  | [] => [(k, a)]
  | e :: rest =>
      if k < e.1 then (k, a) :: e :: rest
      else if e.1 < k then e :: insertAt k a rest
      else (k, a) :: rest

theorem mem_insertAt {k : κ} {a : α} {l : List (κ × α)} {e : κ × α}
    (h : e ∈ insertAt k a l) : e = (k, a) ∨ e ∈ l := by
  induction l with
  | nil => exact Or.inl (by simpa [insertAt] using h)
  | cons x rest ih =>
      rw [insertAt] at h
      split at h
      · exact List.mem_cons.mp h
      · split at h
        · rcases List.mem_cons.mp h with rfl | h'
          · exact Or.inr (by simp)
          · exact (ih h').imp_right (List.mem_cons_of_mem _)
        · exact (List.mem_cons.mp h).imp_right (List.mem_cons_of_mem _)

theorem insertAt_ordered {k : κ} {a : α} {l : List (κ × α)}
    (h : l.Pairwise fun x y => x.1 < y.1) :
    (insertAt k a l).Pairwise fun x y => x.1 < y.1 := by
  induction l with
  | nil => simp [insertAt]
  | cons x rest ih =>
      obtain ⟨hx, hrest⟩ := List.pairwise_cons.mp h
      rw [insertAt]
      split
      · next hlt =>
          refine List.pairwise_cons.mpr ⟨fun y hy => ?_, h⟩
          rcases List.mem_cons.mp hy with rfl | hy'
          · exact hlt
          · exact hlt.trans (hx y hy')
      · next hge =>
          split
          · next hgt =>
              refine List.pairwise_cons.mpr ⟨fun y hy => ?_, ih hrest⟩
              rcases mem_insertAt hy with rfl | hy'
              · exact hgt
              · exact hx y hy'
          · next hle =>
              have hk : k = x.1 := le_antisymm (not_lt.mp hle) (not_lt.mp hge)
              refine List.pairwise_cons.mpr ⟨fun y hy => ?_, hrest⟩
              exact hk ▸ hx y hy

/-- What was under the key makes way for the new document. -/
theorem insertAt_perm (k : κ) (a : α) {l : List (κ × α)}
    (h : l.Pairwise fun x y => x.1 < y.1) :
    (insertAt k a l).Perm ((k, a) :: l.filter fun e => e.1 ≠ k) := by
  induction l with
  | nil => exact .refl _
  | cons x rest ih =>
      obtain ⟨hx, hrest⟩ := List.pairwise_cons.mp h
      have hkeep : ∀ y : κ × α, k ≤ y.1 → (∀ e ∈ rest, y.1 < e.1) →
          (rest.filter fun e => e.1 ≠ k) = rest := by
        intro y hy hlt
        rw [List.filter_eq_self]
        intro e he
        simpa using (hy.trans_lt (hlt e he)).ne'
      rw [insertAt]
      split
      · next hlt =>
          rw [List.filter_cons_of_pos (by simpa using hlt.ne'),
            hkeep x hlt.le hx]
      · next hge =>
          split
          · next hgt =>
              rw [List.filter_cons_of_pos (by simpa using hgt.ne)]
              exact ((ih hrest).cons x).trans (.swap (k, a) x _)
          · next hle =>
              have hk : x.1 = k := le_antisymm (not_lt.mp hge) (not_lt.mp hle)
              rw [List.filter_cons_of_neg (by simpa using hk),
                hkeep x hk.ge hx]

/-- Documents under distinct keys, kept in key order. -/
structure Coll (κ α : Type*) [LinearOrder κ] where
  docs : List (κ × α)
  ordered : docs.Pairwise fun x y => x.1 < y.1

namespace Coll

def empty : Coll κ α := ⟨[], List.Pairwise.nil⟩

def get (c : Coll κ α) (k : κ) : Option α :=
  (c.docs.find? fun e => e.1 = k).map Prod.snd

def put (c : Coll κ α) (k : κ) (a : α) : Coll κ α :=
  ⟨insertAt k a c.docs, insertAt_ordered c.ordered⟩

def erase (c : Coll κ α) (k : κ) : Coll κ α :=
  ⟨c.docs.filter fun e => e.1 ≠ k, c.ordered.sublist List.filter_sublist⟩

/-! ## Reading -/

theorem mem_docs_of_get {c : Coll κ α} {k : κ} {a : α}
    (h : c.get k = some a) : (k, a) ∈ c.docs := by
  obtain ⟨e, he, rfl⟩ := Option.map_eq_some_iff.mp h
  have hk : e.1 = k := by simpa using List.find?_some he
  exact hk ▸ List.mem_of_find?_eq_some he

theorem keys_nodup (c : Coll κ α) : (c.docs.map Prod.fst).Nodup := by
  rw [List.Nodup, List.pairwise_map]
  exact c.ordered.imp ne_of_lt

theorem eq_of_key {c : Coll κ α} {x y : κ × α} (hx : x ∈ c.docs)
    (hy : y ∈ c.docs) (h : x.1 = y.1) : x = y :=
  List.inj_on_of_nodup_map c.keys_nodup hx hy h

theorem get_of_mem_docs {c : Coll κ α} {k : κ} {a : α}
    (h : (k, a) ∈ c.docs) : c.get k = some a := by
  cases hf : c.docs.find? fun e => e.1 = k with
  | none =>
      have hne := List.find?_eq_none.mp hf (k, a) h
      simp at hne
  | some e =>
      have hk : e.1 = k := by simpa using List.find?_some hf
      have he := eq_of_key (List.mem_of_find?_eq_some hf) h hk
      rw [get, hf, he]
      rfl

theorem mem_docs_iff {c : Coll κ α} {k : κ} {a : α} :
    (k, a) ∈ c.docs ↔ c.get k = some a :=
  ⟨get_of_mem_docs, mem_docs_of_get⟩

theorem docs_nodup (c : Coll κ α) : c.docs.Nodup :=
  c.keys_nodup.of_map Prod.fst

theorem ext_docs {c c' : Coll κ α} (h : c.docs = c'.docs) : c = c' := by
  cases c
  cases c'
  obtain rfl := h
  rfl

theorem ext_get {c c' : Coll κ α} (h : ∀ k, c.get k = c'.get k) : c = c' := by
  have hmem : ∀ e, e ∈ c.docs ↔ e ∈ c'.docs := fun e => by
    rw [mem_docs_iff (k := e.1) (a := e.2), mem_docs_iff, h]
  have hperm := (List.perm_ext_iff_of_nodup c.docs_nodup c'.docs_nodup).mpr hmem
  exact ext_docs (hperm.eq_of_pairwise
    (fun x y _ _ hxy hyx => absurd hxy (lt_asymm hyx)) c.ordered c'.ordered)

theorem filter_docs_congr {c c' : Coll κ α} {p : κ → Prop} [DecidablePred p]
    (h : ∀ k, p k → c.get k = c'.get k) :
    (c.docs.filter fun e => p e.1) = c'.docs.filter fun e => p e.1 := by
  have hmem : ∀ e, (e ∈ c.docs.filter fun e => p e.1) ↔
      e ∈ c'.docs.filter fun e => p e.1 := fun e => by
    rw [List.mem_filter, List.mem_filter, decide_eq_true_iff]
    refine and_congr_left fun hp => ?_
    rw [mem_docs_iff (k := e.1) (a := e.2), mem_docs_iff, h e.1 hp]
  have hperm := (List.perm_ext_iff_of_nodup (c.docs_nodup.filter _)
    (c'.docs_nodup.filter _)).mpr hmem
  exact hperm.eq_of_pairwise
    (fun x y _ _ hxy hyx => absurd hxy (lt_asymm hyx))
    (c.ordered.filter _) (c'.ordered.filter _)

theorem find?_insertAt {k k' : κ} {a : α} (l : List (κ × α)) :
    (insertAt k a l).find? (fun e => e.1 = k') =
      if k' = k then some (k, a) else l.find? fun e => e.1 = k' := by
  induction l with
  | nil =>
      by_cases h : k' = k
      · simp [insertAt, h]
      · simp [insertAt, h, Ne.symm h]
  | cons x rest ih =>
      rw [insertAt]
      by_cases h : k' = k
      · subst h
        split
        · simp
        · split
          · next hlt => simp [hlt.ne, ih]
          · simp
      · have hne : k ≠ k' := Ne.symm h
        split
        · simp [hne]
        · next hge =>
            split
            · by_cases hx : x.1 = k' <;> simp [hx, ih, h]
            · next hle =>
                have hk : x.1 = k :=
                  le_antisymm (not_lt.mp hge) (not_lt.mp hle)
                simp [hk, hne]

theorem get_put (c : Coll κ α) (k k' : κ) (a : α) :
    (c.put k a).get k' = if k' = k then some a else c.get k' := by
  rw [get, put, find?_insertAt]
  split <;> rfl

@[simp] theorem get_put_self (c : Coll κ α) (k : κ) (a : α) :
    (c.put k a).get k = some a := by rw [get_put, if_pos rfl]

theorem get_erase (c : Coll κ α) (k k' : κ) :
    (c.erase k).get k' = if k' = k then none else c.get k' := by
  rw [get, erase, get]
  by_cases h : k' = k
  · subst h
    rw [if_pos rfl, List.find?_eq_none.mpr]
    · rfl
    · intro x hx
      simpa using (List.mem_filter.mp hx).2
  · rw [if_neg h, List.find?_filter]
    congr 2
    funext e
    by_cases he : e.1 = k'
    · simp [he, h]
    · simp [he]

theorem put_of_get {c : Coll κ α} {k : κ} {a : α} (h : c.get k = some a) :
    c.put k a = c := by
  refine ext_get fun k' => ?_
  rw [get_put]
  split
  · next hk => rw [hk, h]
  · rfl

theorem erase_of_get {c : Coll κ α} {k : κ} (h : c.get k = none) :
    c.erase k = c := by
  refine ext_get fun k' => ?_
  rw [get_erase]
  split
  · next hk => rw [hk, h]
  · rfl

/-! ## How many there are -/

theorem length_erase_le (c : Coll κ α) (k : κ) :
    (c.erase k).docs.length ≤ c.docs.length :=
  List.length_filter_le _ _

theorem length_put (c : Coll κ α) (k : κ) (a : α) :
    (c.put k a).docs.length = (c.erase k).docs.length + 1 :=
  (insertAt_perm k a c.ordered).length_eq

theorem length_put_le (c : Coll κ α) (k : κ) (a : α) :
    (c.put k a).docs.length ≤ c.docs.length + 1 := by
  rw [length_put]
  exact Nat.succ_le_succ (c.length_erase_le k)

theorem length_put_of_get {c : Coll κ α} {k : κ} {b : α} (a : α)
    (h : c.get k = some b) : (c.put k a).docs.length = c.docs.length := by
  rw [length_put, ← length_put _ _ b, put_of_get h]

/-! ## Totals -/

section Total

variable {M : Type*} [AddCommMonoid M]

/-- A quantity summed over all documents. -/
def total (f : κ → α → M) (c : Coll κ α) : M :=
  (c.docs.map fun e => f e.1 e.2).sum

theorem total_put (f : κ → α → M) (c : Coll κ α) (k : κ) (a : α) :
    total f (c.put k a) = total f (c.erase k) + f k a := by
  have hperm := insertAt_perm k a c.ordered
  rw [total, put, (hperm.map _).sum_eq, List.map_cons, List.sum_cons, add_comm]
  rfl

theorem total_put_new (f : κ → α → M) {c : Coll κ α} {k : κ} (a : α)
    (h : c.get k = none) : total f (c.put k a) = total f c + f k a := by
  rw [total_put, erase_of_get h]

theorem total_erase (f : κ → α → M) {c : Coll κ α} {k : κ} {b : α}
    (h : c.get k = some b) : total f (c.erase k) + f k b = total f c := by
  rw [← total_put, put_of_get h]

theorem total_put_old (f : κ → α → M) {c : Coll κ α} {k : κ} {b : α} (a : α)
    (h : c.get k = some b) :
    total f (c.put k a) + f k b = total f c + f k a := by
  rw [total_put, add_right_comm, total_erase f h]

theorem total_eq_zero (f : κ → α → M) {c : Coll κ α}
    (h : ∀ k a, c.get k = some a → f k a = 0) : total f c = 0 := by
  refine List.sum_eq_zero fun x hx => ?_
  obtain ⟨e, he, rfl⟩ := List.mem_map.mp hx
  exact h e.1 e.2 (get_of_mem_docs he)

theorem total_eq_single (f : κ → α → M) {c : Coll κ α} {k : κ} {a : α}
    (h : c.get k = some a)
    (hzero : ∀ k' a', c.get k' = some a' → k' ≠ k → f k' a' = 0) :
    total f c = f k a := by
  rw [← total_erase f h, total_eq_zero, zero_add]
  intro k' a' hk'
  rw [get_erase] at hk'
  split at hk'
  · cases hk'
  · next hne => exact hzero k' a' hk' hne

/-- A sum over some of the documents is a total in which the others count
nothing. -/
theorem sum_filter_docs (f : κ → α → M) (p : κ → Prop) [DecidablePred p]
    (c : Coll κ α) : ((c.docs.filter fun e => p e.1).map fun e => f e.1 e.2).sum =
      total (fun k a => if p k then f k a else 0) c := by
  rw [total]
  induction c.docs with
  | nil => rfl
  | cons e rest ih =>
      by_cases hp : p e.1
      · rw [List.filter_cons_of_pos (by simpa using hp)]
        simp [hp, ih]
      · rw [List.filter_cons_of_neg (by simpa using hp)]
        simp [hp, ih]

/-- The documents that count and those that do not. -/
theorem total_split (f : κ → α → M) (p : κ → Prop) [DecidablePred p]
    (c : Coll κ α) : total f c =
      total (fun k a => if p k then f k a else 0) c +
        total (fun k a => if p k then 0 else f k a) c := by
  rw [total, total, total, ← List.sum_map_add]
  refine congrArg List.sum (List.map_congr_left fun e _ => ?_)
  by_cases hp : p e.1 <;> simp [hp]

theorem total_of_get_ite (f : κ → α → M) (p : κ → Prop) [DecidablePred p]
    {c c' : Coll κ α} (h : ∀ k, c'.get k = if p k then c.get k else none) :
    total f c' = total (fun k a => if p k then f k a else 0) c := by
  let r : Coll κ α := ⟨c.docs.filter fun e => p e.1,
    c.ordered.sublist List.filter_sublist⟩
  have hr : c' = r := by
    refine ext_get fun k => ?_
    rw [h, get, get, List.find?_filter]
    by_cases hp : p k
    · rw [if_pos hp]
      congr 2
      funext e
      by_cases he : e.1 = k
      · simp [he, hp]
      · simp [he]
    · rw [if_neg hp, List.find?_eq_none.mpr]
      · rfl
      · intro e _ he
        simp only [decide_eq_true_eq] at he
        exact hp (he.2 ▸ he.1)
  rw [hr, ← sum_filter_docs, total]

end Total

end Coll

end Keyed
