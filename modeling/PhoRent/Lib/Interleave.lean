import Mathlib.Algebra.BigOperators.Group.Finset.Basic
import Mathlib.Data.Fintype.Basic
import Mathlib.Logic.Function.Basic
import Mathlib.Logic.Relation

/-!
# Processes interleaved over a shared state

A process is suspended at some point of its own code, the locals it has
captured included, and acts on a state it shares with the others. One action
is atomic; between two actions of one process any number of actions of the
others may fall. Nothing here says what the processes are.

What a proof about such a system wants are a few rules. An invariant needs
one look at a single action. A fact about one process needs two looks, at the
actions of that process and at those of the others. And a quantity that an
action only moves between the shared state and the process acting is constant
along every run, which is where conservation laws come from; one that every
action uses up bounds the length of the runs.
-/

namespace Interleave

variable {ι σ κ : Type*}

/-- The shared state, and where each process stands. -/
structure Config (ι σ κ : Type*) where
  shared : σ
  locals : ι → κ

variable [DecidableEq ι]

def Config.act (c : Config ι σ κ) (i : ι) (s : σ) (k : κ) : Config ι σ κ :=
  ⟨s, Function.update c.locals i k⟩

@[simp] theorem Config.act_shared (c : Config ι σ κ) (i : ι) (s : σ) (k : κ) :
    (c.act i s k).shared = s := rfl

@[simp] theorem Config.act_self (c : Config ι σ κ) (i : ι) (s : σ) (k : κ) :
    (c.act i s k).locals i = k := by simp [Config.act]

theorem Config.act_ne (c : Config ι σ κ) {i j : ι} (s : σ) (k : κ)
    (h : j ≠ i) : (c.act i s k).locals j = c.locals j := by
  simp [Config.act, h]

@[simp] theorem Config.act_act (c : Config ι σ κ) (i : ι) (s s' : σ)
    (k k' : κ) : (c.act i s k).act i s' k' = c.act i s' k' := by
  simp [Config.act]

theorem Config.act_eq_self (c : Config ι σ κ) (i : ι) :
    c.act i c.shared (c.locals i) = c := by
  simp [Config.act]

theorem Config.exists_act {P : κ → Prop} {c : Config ι σ κ} {i : ι} {s : σ}
    {k : κ} (hk : P (c.locals i) → P k) (h : ∃ j, P (c.locals j)) :
    ∃ j, P ((c.act i s k).locals j) := by
  obtain ⟨j, hj⟩ := h
  refine ⟨j, ?_⟩
  by_cases hji : j = i
  · subst hji
    rw [Config.act_self]
    exact hk hj
  · rw [Config.act_ne c s k hji]
    exact hj

inductive Moves (step : ι → σ → κ → σ → κ → Prop) :
    Config ι σ κ → Config ι σ κ → Prop
  | act {c : Config ι σ κ} (i : ι) {s : σ} {k : κ}
      (h : step i c.shared (c.locals i) s k) : Moves step c (c.act i s k)

/-- Any number of actions, in any order of the processes. -/
abbrev Run (step : ι → σ → κ → σ → κ → Prop) :
    Config ι σ κ → Config ι σ κ → Prop :=
  Relation.ReflTransGen (Moves step)

section Rules

variable {step : ι → σ → κ → σ → κ → Prop} {c c' : Config ι σ κ}

/-- What a process does while it has the shared state to itself is a run. -/
theorem Run.solo {i : ι} {s s' : σ} {k k' : κ}
    (h : Relation.ReflTransGen (fun x y => step i x.1 x.2 y.1 y.2)
      (s, k) (s', k'))
    (hs : c.shared = s) (hk : c.locals i = k) :
    Run step c (c.act i s' k') := by
  generalize hx : (s', k') = x at h
  induction h generalizing s' k' with
  | refl =>
      obtain ⟨rfl, rfl⟩ := Prod.mk.inj hx
      rw [← hs, ← hk, Config.act_eq_self]
  | @tail y z _ hstep ih =>
      subst hx
      have hm : Moves step (c.act i y.1 y.2) ((c.act i y.1 y.2).act i s' k') := by
        refine .act i ?_
        rw [Config.act_shared, Config.act_self]
        exact hstep
      rw [Config.act_act] at hm
      exact .tail (ih rfl) hm

/-- The processes of a list one after another, each to its end. -/
inductive InTurn (step : ι → σ → κ → σ → κ → Prop) (fin : κ → Prop)
    (start : ι → κ) : List ι → σ → σ → Prop
  | nil {s : σ} : InTurn step fin start [] s s
  | cons {i : ι} {rest : List ι} {s s' s'' : σ} {k : κ}
      (h : Relation.ReflTransGen (fun x y => step i x.1 x.2 y.1 y.2)
        (s, start i) (s', k)) (hk : fin k)
      (hrest : InTurn step fin start rest s' s'') :
      InTurn step fin start (i :: rest) s s''

theorem InTurn.run {fin : κ → Prop} {start : ι → κ} {order : List ι}
    {s s' : σ} (h : InTurn step fin start order s s') (hn : order.Nodup)
    (hs : c.shared = s) (hstart : ∀ i ∈ order, c.locals i = start i) :
    ∃ c', Run step c c' ∧ c'.shared = s' ∧
      (∀ i ∈ order, fin (c'.locals i)) ∧
      ∀ i, i ∉ order → c'.locals i = c.locals i := by
  induction h generalizing c with
  | nil => exact ⟨c, .refl, hs, by simp, fun _ _ => rfl⟩
  | @cons i rest s s' s'' k hsolo hk hrest ih =>
      obtain ⟨hi, hn⟩ := List.nodup_cons.mp hn
      have hfirst := Run.solo hsolo hs (hstart i (by simp))
      obtain ⟨c', hrun, hs', hfin, hkeep⟩ := ih (c := c.act i s' k) hn rfl
        fun j hj => by
          rw [Config.act_ne c s' k (ne_of_mem_of_not_mem hj hi)]
          exact hstart j (by simp [hj])
      refine ⟨c', hfirst.trans hrun, hs', fun j hj => ?_, fun j hj => ?_⟩
      · rcases List.mem_cons.mp hj with rfl | hj
        · rw [hkeep j hi, Config.act_self]
          exact hk
        · exact hfin j hj
      · rw [List.mem_cons, not_or] at hj
        rw [hkeep j hj.2, Config.act_ne c s' k hj.1]

omit [DecidableEq ι] in
theorem exists_inTurn {fin : κ → Prop} {start : ι → κ}
    (h : ∀ i s, ∃ z, Relation.ReflTransGen
      (fun x y => step i x.1 x.2 y.1 y.2) (s, start i) z ∧ fin z.2)
    (order : List ι) (s : σ) : ∃ s', InTurn step fin start order s s' := by
  induction order generalizing s with
  | nil => exact ⟨s, .nil⟩
  | cons i rest ih =>
      obtain ⟨z, hsolo, hk⟩ := h i s
      obtain ⟨s', hrest⟩ := ih z.1
      exact ⟨s', .cons hsolo hk hrest⟩

/-- What one action preserves holds along every run. -/
theorem Run.invariant {I : Config ι σ κ → Prop}
    (hstep : ∀ (c : Config ι σ κ) i s k, I c →
      step i c.shared (c.locals i) s k → I (c.act i s k))
    (h : Run step c c') (h0 : I c) : I c' := by
  induction h with
  | refl => exact h0
  | tail _ hm ih =>
      obtain ⟨i, hi⟩ := hm
      exact hstep _ i _ _ ih hi

/-- A fact about each process next to a fact about the shared state: the
process that acts has to re-establish both, and must not spoil anybody
else's. -/
theorem Run.pointwise {G : σ → Prop} {L : ι → σ → κ → Prop}
    (own : ∀ i s k s' k', G s → L i s k → step i s k s' k' →
      G s' ∧ L i s' k')
    (other : ∀ i j s k s' k' kj, j ≠ i → G s → L i s k → L j s kj →
      step i s k s' k' → L j s' kj)
    (h : Run step c c')
    (h0 : G c.shared ∧ ∀ i, L i c.shared (c.locals i)) :
    G c'.shared ∧ ∀ i, L i c'.shared (c'.locals i) := by
  refine h.invariant
    (I := fun c => G c.shared ∧ ∀ i, L i c.shared (c.locals i)) ?_ h0
  intro c i s k ⟨hG, hL⟩ hs
  obtain ⟨hG', hi'⟩ := own i _ _ _ _ hG (hL i) hs
  refine ⟨hG', fun j => ?_⟩
  by_cases hj : j = i
  · subst hj
    rw [Config.act_self]
    exact hi'
  · rw [Config.act_ne c s k hj]
    exact other i j _ _ _ _ _ hj hG (hL i) (hL j) hs

/-- Where the fact about a process does not speak of the shared state, nobody
can spoil it for another. -/
theorem Run.separate {G : σ → Prop} {L : ι → κ → Prop}
    (own : ∀ i s k s' k', G s → L i k → step i s k s' k' → G s' ∧ L i k')
    (h : Run step c c') (h0 : G c.shared ∧ ∀ i, L i (c.locals i)) :
    G c'.shared ∧ ∀ i, L i (c'.locals i) :=
  h.pointwise own (fun _ _ _ _ _ _ _ _ _ _ hj _ => hj) h0

section Play

variable {α : Type*}

/-- Let the processes act in the order of a schedule, which also says how.
There is no result where an action is not possible. -/
def play (act? : ι → α → σ → κ → Option (σ × κ)) :
    List (ι × α) → Config ι σ κ → Option (Config ι σ κ)
  | [], c => some c
  | (i, a) :: rest, c =>
      match act? i a c.shared (c.locals i) with
      | some (s, k) => play act? rest (c.act i s k)
      | none => none

theorem play_run {act? : ι → α → σ → κ → Option (σ × κ)}
    (hact : ∀ i a s k s' k', act? i a s k = some (s', k') →
      step i s k s' k')
    {l : List (ι × α)} (h : play act? l c = some c') : Run step c c' := by
  induction l generalizing c with
  | nil =>
      obtain rfl := Option.some.inj h
      exact .refl
  | cons e rest ih =>
      rw [play] at h
      split at h
      · next s k hs =>
          have hm : Moves step c (c.act e.1 s k) := .act _ (hact _ _ _ _ _ _ hs)
          exact .head hm (ih h)
      · cases h

/-- A run to a configuration with a decidable property, from its schedule. -/
theorem exists_run_of_play (act? : ι → α → σ → κ → Option (σ × κ))
    (hact : ∀ i a s k s' k', act? i a s k = some (s', k') →
      step i s k s' k')
    (l : List (ι × α)) {P : Config ι σ κ → Prop} [DecidablePred P]
    (h : (play act? l c).any (fun d => decide (P d)) = true) :
    ∃ d, Run step c d ∧ P d := by
  obtain ⟨d, hd, hP⟩ := Option.any_eq_true _ _ |>.mp h
  exact ⟨d, play_run hact hd, of_decide_eq_true hP⟩

def playSolo (act? : α → σ → κ → Option (σ × κ)) :
    List α → σ × κ → Option (σ × κ)
  | [], x => some x
  | a :: rest, x =>
      match act? a x.1 x.2 with
      | some y => playSolo act? rest y
      | none => none

omit [DecidableEq ι] in
theorem playSolo_run {act? : α → σ → κ → Option (σ × κ)} {i : ι}
    (hact : ∀ a s k s' k', act? a s k = some (s', k') → step i s k s' k')
    {l : List α} {x z : σ × κ} (h : playSolo act? l x = some z) :
    Relation.ReflTransGen (fun x y => step i x.1 x.2 y.1 y.2) x z := by
  induction l generalizing x with
  | nil =>
      obtain rfl := Option.some.inj h
      exact .refl
  | cons a rest ih =>
      rw [playSolo] at h
      split at h
      · next y hy => exact .head (hact _ _ _ _ _ hy) (ih h)
      · cases h

/-- Let the processes act one after another, each on a schedule of its own.
There is no result where one does not come to its end. -/
def playInTurn (act? : ι → α → σ → κ → Option (σ × κ)) (fin : κ → Prop)
    [DecidablePred fin] (start : ι → κ) : List (ι × List α) → σ → Option σ
  | [], s => some s
  | (i, l) :: rest, s =>
      match playSolo (act? i) l (s, start i) with
      | some (s', k) =>
          if fin k then playInTurn act? fin start rest s' else none
      | none => none

omit [DecidableEq ι] in
theorem playInTurn_run {act? : ι → α → σ → κ → Option (σ × κ)}
    (hact : ∀ i a s k s' k', act? i a s k = some (s', k') →
      step i s k s' k')
    {fin : κ → Prop} [DecidablePred fin] {start : ι → κ}
    {l : List (ι × List α)} {s s' : σ}
    (h : playInTurn act? fin start l s = some s') :
    InTurn step fin start (l.map Prod.fst) s s' := by
  induction l generalizing s with
  | nil =>
      obtain rfl := Option.some.inj h
      exact .nil
  | cons e rest ih =>
      rw [playInTurn] at h
      split at h
      · next s₁ k hsolo =>
          split at h
          · next hk => exact .cons (playSolo_run (hact e.1) hsolo) hk (ih h)
          · cases h
      · cases h

omit [DecidableEq ι] in
theorem exists_inTurn_of_play (act? : ι → α → σ → κ → Option (σ × κ))
    (hact : ∀ i a s k s' k', act? i a s k = some (s', k') →
      step i s k s' k')
    {fin : κ → Prop} [DecidablePred fin] {start : ι → κ}
    (l : List (ι × List α)) {s : σ} {P : σ → Prop} [DecidablePred P]
    (h : (playInTurn act? fin start l s).any (fun s' => decide (P s')) =
      true) :
    ∃ s', InTurn step fin start (l.map Prod.fst) s s' ∧ P s' := by
  obtain ⟨s', hs', hP⟩ := Option.any_eq_true _ _ |>.mp h
  exact ⟨s', playInTurn_run hact hs', of_decide_eq_true hP⟩

end Play

inductive RunIn (step : ι → σ → κ → σ → κ → Prop) :
    ℕ → Config ι σ κ → Config ι σ κ → Prop
  | refl {c : Config ι σ κ} : RunIn step 0 c c
  | act {n : ℕ} {c c' : Config ι σ κ} (i : ι) {s : σ} {k : κ}
      (hi : step i c.shared (c.locals i) s k)
      (h : RunIn step n (c.act i s k) c') : RunIn step (n + 1) c c'

theorem play_runIn {α : Type*} {act? : ι → α → σ → κ → Option (σ × κ)}
    (hact : ∀ i a s k s' k', act? i a s k = some (s', k') →
      step i s k s' k')
    {l : List (ι × α)} (h : play act? l c = some c') :
    RunIn step l.length c c' := by
  induction l generalizing c with
  | nil =>
      obtain rfl := Option.some.inj h
      exact .refl
  | cons e rest ih =>
      rw [play] at h
      split at h
      · next s k hs => exact .act _ (hact _ _ _ _ _ _ hs) (ih h)
      · cases h

theorem exists_runIn_of_play {α : Type*}
    (act? : ι → α → σ → κ → Option (σ × κ))
    (hact : ∀ i a s k s' k', act? i a s k = some (s', k') →
      step i s k s' k')
    (l : List (ι × α)) {P : Config ι σ κ → Prop} [DecidablePred P]
    (h : (play act? l c).any (fun d => decide (P d)) = true) :
    ∃ d, RunIn step l.length c d ∧ P d := by
  obtain ⟨d, hd, hP⟩ := Option.any_eq_true _ _ |>.mp h
  exact ⟨d, play_runIn hact hd, of_decide_eq_true hP⟩

section Ledger

variable [Fintype ι] {M : Type*} [AddCommMonoid M]

theorem Config.sum_act (ψ : ι → κ → M) (c : Config ι σ κ) (i : ι) (s : σ)
    (k : κ) :
    (∑ j, ψ j ((c.act i s k).locals j)) + ψ i (c.locals i) =
      (∑ j, ψ j (c.locals j)) + ψ i k := by
  rw [← Finset.add_sum_erase _ _ (Finset.mem_univ i),
    ← Finset.add_sum_erase _ (fun j => ψ j (c.locals j)) (Finset.mem_univ i),
    Config.act_self]
  have hrest : ∑ j ∈ Finset.univ.erase i, ψ j ((c.act i s k).locals j) =
      ∑ j ∈ Finset.univ.erase i, ψ j (c.locals j) := by
    refine Finset.sum_congr rfl fun j hj => ?_
    rw [Config.act_ne c s k (Finset.ne_of_mem_erase hj)]
  rw [hrest, add_right_comm, add_comm (ψ i k), add_right_comm,
    add_comm (ψ i (c.locals i))]

/-- What the shared state holds together with what the processes hold. -/
def Config.balance (φ : σ → M) (ψ : ι → κ → M) (c : Config ι σ κ) : M :=
  φ c.shared + ∑ i, ψ i (c.locals i)

/-- The ledger rule: an action that only moves a quantity between the shared
state and the process acting keeps the balance, and so does a run of them.
The actions may rely on an invariant. -/
theorem Run.ledger {I : Config ι σ κ → Prop} (φ : σ → M) (ψ : ι → κ → M)
    (hinv : ∀ (c : Config ι σ κ) i s k, I c →
      step i c.shared (c.locals i) s k → I (c.act i s k))
    (hstep : ∀ (c : Config ι σ κ) i s k, I c →
      step i c.shared (c.locals i) s k →
        φ s + ψ i k = φ c.shared + ψ i (c.locals i))
    (h : Run step c c') (h0 : I c) : c'.balance φ ψ = c.balance φ ψ := by
  have hboth : I c' ∧ c'.balance φ ψ = c.balance φ ψ := by
    refine h.invariant
      (I := fun d => I d ∧ d.balance φ ψ = c.balance φ ψ) ?_ ⟨h0, rfl⟩
    intro d i s k ⟨hI, hb⟩ hs
    refine ⟨hinv d i s k hI hs, ?_⟩
    rw [← hb]
    simp only [Config.balance, Config.act_shared]
    rw [← Finset.add_sum_erase _ _ (Finset.mem_univ i),
      ← Finset.add_sum_erase _ (fun j => ψ j (d.locals j))
        (Finset.mem_univ i), Config.act_self, ← add_assoc, ← add_assoc,
      hstep d i s k hI hs]
    congr 1
    refine Finset.sum_congr rfl fun j hj => ?_
    rw [Config.act_ne d s k (Finset.ne_of_mem_erase hj)]
  exact hboth.2

/-- What an action changes of the balance is what it changes of the two
sides. -/
theorem Config.balance_act (φ : σ → M) (ψ : ι → κ → M) (c : Config ι σ κ)
    (i : ι) (s : σ) (k : κ) :
    (c.act i s k).balance φ ψ + (φ c.shared + ψ i (c.locals i)) =
      c.balance φ ψ + (φ s + ψ i k) := by
  rw [Config.balance, Config.balance, Config.act_shared,
    add_add_add_comm, add_comm (φ s), add_assoc (φ c.shared),
    add_comm (φ s), add_add_add_comm, Config.sum_act, add_comm _ (φ s),
    add_assoc]

/-- The budget rule: an action that uses up some of a quantity can only be
taken so often. -/
theorem RunIn.le_balance {I : Config ι σ κ → Prop} (φ : σ → ℕ)
    (ψ : ι → κ → ℕ)
    (hstep : ∀ (c : Config ι σ κ) i s k, I c →
      step i c.shared (c.locals i) s k →
        I (c.act i s k) ∧ φ s + ψ i k < φ c.shared + ψ i (c.locals i))
    {n : ℕ} (h : RunIn step n c c') (h0 : I c) :
    I c' ∧ n + c'.balance φ ψ ≤ c.balance φ ψ := by
  induction h with
  | refl => exact ⟨h0, Nat.le_of_eq (Nat.zero_add _)⟩
  | @act n d _ i s k hi _ ih =>
      obtain ⟨hI, hlt⟩ := hstep d i s k h0 hi
      obtain ⟨hI', hle⟩ := ih hI
      have hact := d.balance_act φ ψ i s k
      exact ⟨hI', by omega⟩

end Ledger

end Rules

end Interleave
