import PhoRent.Functions.Play
import PhoRent.Proofs.Positions

/-!
# Many calls on one item's stock

Both functions read the stock count, compute with what they have read, and
write the result back whole. Nothing ties the write to the read. Let any
number of users act on one item at once: as long as every write finds the
count its call has read, the counts add up as if the calls had run one after
the other, and no unit is handed out twice. A write on a count that has moved
since undoes whatever moved it. What an add has taken it places in its caller's
basket, in full if there is at most one line for it to find.
-/

namespace PhoRent

open Interleave

/-! ## What the calls take and give -/

def DeleteCall.restocked : DeleteCall ℤ → ℤ
  | .done _ k => k
  | _ => 0

def Call.drawn : Call ℤ → ℤ
  | .add c => c.taken
  | .delete c => -c.restocked

/-- A call about to write the stock count has read the count that is there
now. -/
def Call.StockFresh (s : Store ℤ) : Call ℤ → Prop
  | .add (.updateStock req item _) => s.stock req.ref = item.count
  | .delete (.updateStock _ k ref m) => s.stock ref + k = m
  | _ => True

instance (s : Store ℤ) : DecidablePred (Call.StockFresh s)
  | .add (.updateStock req item _) =>
      inferInstanceAs (Decidable (s.stock req.ref = item.count))
  | .delete (.updateStock _ k ref m) =>
      inferInstanceAs (Decidable (s.stock ref + k = m))
  | .add (.getItem _) | .add (.queryBasket _ _ _ _) | .add (.setLine _ _ _)
  | .add (.updateLines _ _ _ _) | .add (.done _) | .add (.failed _ _)
  | .delete (.getLine _) | .delete (.deleteLine _ _)
  | .delete (.getItem _ _ _) | .delete (.done _ _)
  | .delete (.failed _ _) => .isTrue trivial

/-- An action of an add moves units between the stock and the call, if its
write of the stock is fresh. -/
theorem AddAt.stock_acts {s s' : Store ℤ} {ref : ItemRef} {uid name : String}
    {n : ℤ} {c c' : AddCall ℤ} (hs : s.Named ref name)
    (h : AddAt ref uid n name c) (ha : AddCall.Acts s c s' c')
    (hf : (Call.add c).StockFresh s) :
    s'.stock ref + c'.taken = s.stock ref + c.taken := by
  cases h with
  | getItem =>
      cases ha
      obtain ⟨item, hi, -⟩ := hs
      rw [AddReq.of_ref, hi, AddCall.onItem_of]
      split <;> rfl
  | updateStock hname hn =>
      cases ha with
      | updateStock _ _ _ hu =>
          have hst := Store.stock_updateItem hu ref
          rw [AddReq.of_ref, if_pos rfl] at hst
          simp only [Call.StockFresh, AddReq.of_ref] at hf
          rw [AddCall.onStockUpdated_of hname]
          simp only [AddCall.taken, AddReq.of]
          omega
  | queryBasket =>
      cases ha
      rw [AddCall.taken_onBasket]
      rfl
  | setLine => cases ha; rfl
  | updateLines =>
      cases ha with
      | updateLine _ _ _ _ _ hk hu =>
          rw [AddCall.taken_settle, Store.stock, Store.updateLine_items hu]
          rfl
  | done => cases ha
  | refused => cases ha

theorem DeleteAt.stock_acts {s s' : Store ℤ} {ref : ItemRef}
    {uid lineID : String} {k : ℤ} {c c' : DeleteCall ℤ}
    (h : DeleteAt ref uid lineID k c) (ha : DeleteCall.Acts s c s' c')
    (hf : (Call.delete c).StockFresh s) :
    s'.stock ref - c'.restocked = s.stock ref - c.restocked := by
  cases h with
  | getLine =>
      cases ha
      simp only [DeleteCall.onLine]
      split <;> rfl
  | deleteLine => cases ha; rfl
  | getItem =>
      cases ha
      simp only [DeleteCall.onItem]
      split <;> rfl
  | updateStock =>
      cases ha with
      | updateStock _ _ _ _ hu =>
          have hst := Store.stock_updateItem hu ref
          rw [if_pos rfl] at hst
          simp only [Call.StockFresh] at hf
          simp only [DeleteCall.restocked]
          omega
  | done => cases ha
  | gone => cases ha

/-! ## One call per user

A call only touches the basket of its own caller, so a line is what it was
until its owner's call removes it. -/

theorem AddAt.line_acts {s s' : Store ℤ} {ref : ItemRef} {uid name : String}
    {n : ℤ} {c c' : AddCall ℤ} (h : AddAt ref uid n name c)
    (ha : AddCall.Acts s c s' c') {u : String} (hu : u ≠ uid)
    (lineID : String) : s'.line u lineID = s.line u lineID := by
  cases h with
  | getItem | queryBasket => cases ha; rfl
  | updateStock =>
      cases ha with
      | updateStock _ _ _ hup => exact Store.updateItem_line hup u lineID
  | setLine =>
      cases ha
      rw [Store.line_setLine, if_neg (fun h => hu h.1)]
  | updateLines =>
      cases ha with
      | updateLine _ _ _ _ _ hk hup =>
          obtain ⟨d, -, rfl⟩ := Store.updateLine_eq_some.mp hup
          rw [Store.line_setLine, if_neg (fun h => hu h.1)]
  | done => cases ha
  | refused => cases ha

theorem DeleteAt.line_acts {s s' : Store ℤ} {ref : ItemRef}
    {uid lineID : String} {k : ℤ} {c c' : DeleteCall ℤ}
    (h : DeleteAt ref uid lineID k c) (ha : DeleteCall.Acts s c s' c')
    {u : String} (hu : u ≠ uid) (l : String) :
    s'.line u l = s.line u l := by
  cases h with
  | getLine | getItem => cases ha; rfl
  | deleteLine =>
      cases ha
      rw [Store.line_deleteLine]
      exact if_neg fun h => hu h.1
  | updateStock =>
      cases ha with
      | updateStock _ _ _ _ hup => exact Store.updateItem_line hup u l
  | done => cases ha
  | gone => cases ha

/-- What a user asks for: some units of the item, or the removal of a line. -/
inductive Job
  | add (n : ℤ)
  | remove (lineID : String)

def Job.start (ref : ItemRef) (uid : String) : Job → Call ℤ
  | .add n => .add (.getItem (.of ref uid n))
  | .remove lineID => .delete (.getLine (.of ref uid lineID))

/-- An add asks for at least one unit; a removal names a line of the item in
the caller's basket. -/
def Job.Valid (s : Store ℤ) (ref : ItemRef) (uid : String) : Job → Prop
  | .add n => 1 ≤ n
  | .remove lineID => ∃ d, s.line uid lineID = some d ∧ d.ref = ref

def Job.units (s : Store ℤ) (uid : String) : Job → ℤ
  | .add _ => 0
  | .remove lineID => ((s.line uid lineID).map fun d => d.count).getD 0

def Call.placed : Call ℤ → ℤ
  | .add c => c.placed
  | .delete _ => 0

/-- Where the call of a job stands. The line of a removal is untouched while
the removal has not read it. -/
def Job.At (s₀ s : Store ℤ) (ref : ItemRef) (name uid : String) :
    Job → Call ℤ → Prop
  | .add n, .add c => AddAt ref uid n name c
  | .remove lineID, .delete c => ∃ d, s₀.line uid lineID = some d ∧
      DeleteAt ref uid lineID d.count c ∧ (∀ req e, c ≠ .failed req e) ∧
      (∀ req, c = .getLine req → s.line uid lineID = some d)
  | _, _ => False

def FreshStep (s : Store ℤ) (k : Call ℤ) (s' : Store ℤ) (k' : Call ℤ) :
    Prop :=
  Call.Acts s k s' k' ∧ k.StockFresh s

theorem Job.At.own {s₀ s s' : Store ℤ} {ref : ItemRef} {name uid : String}
    {j : Job} {k k' : Call ℤ} (hs : s.Named ref name)
    (h : j.At s₀ s ref name uid k) (ha : Call.Acts s k s' k') :
    j.At s₀ s' ref name uid k' := by
  cases ha with
  | add ha =>
      cases j with
      | add n => exact AddAt.acts hs h ha
      | remove lineID => exact h.elim
  | @delete c c' _ ha =>
      cases j with
      | add n => exact h.elim
      | remove lineID =>
          obtain ⟨d, hd, hat, hnf, hwait⟩ := h
          obtain ⟨item, hi, -⟩ := hs
          refine ⟨d, hd, ?_⟩
          cases hat with
          | getLine =>
              cases ha
              have hl := hwait _ rfl
              simp only [DeleteReq.of, hl, DeleteCall.onLine]
              exact ⟨.deleteLine, by simp, by simp⟩
          | deleteLine =>
              cases ha
              rw [DeleteReq.onDeleted_of]
              exact ⟨.getItem, by simp, by simp⟩
          | getItem =>
              cases ha
              rw [hi, DeleteCall.onItem]
              exact ⟨.updateStock, by simp, by simp⟩
          | updateStock => cases ha; exact ⟨.done, by simp, by simp⟩
          | done => cases ha
          | gone => cases ha

theorem Job.At.line_acts {s₀ s s' : Store ℤ} {ref : ItemRef}
    {name uid : String} {j : Job} {k k' : Call ℤ}
    (h : j.At s₀ s ref name uid k) (ha : Call.Acts s k s' k') {u : String}
    (hu : u ≠ uid) (lineID : String) : s'.line u lineID = s.line u lineID := by
  cases ha with
  | add ha =>
      cases j with
      | add n => exact AddAt.line_acts h ha hu lineID
      | remove _ => exact h.elim
  | delete ha =>
      cases j with
      | add _ => exact h.elim
      | remove _ =>
          obtain ⟨_, -, hat, -⟩ := h
          exact hat.line_acts ha hu lineID

theorem Job.At.other {s₀ s s' : Store ℤ} {ref : ItemRef}
    {name uid : String} {j : Job} {k : Call ℤ} (h : j.At s₀ s ref name uid k)
    (hl : ∀ lineID, s'.line uid lineID = s.line uid lineID) :
    j.At s₀ s' ref name uid k := by
  cases j with
  | add n =>
      cases k with
      | add c => exact h
      | delete _ => exact h.elim
  | remove lineID =>
      cases k with
      | add _ => exact h.elim
      | delete c =>
          obtain ⟨d, hd, hat, hnf, hwait⟩ := h
          exact ⟨d, hd, hat, hnf, fun req hreq => by
            rw [hl lineID]; exact hwait req hreq⟩

theorem Job.At.stock_acts {s₀ s s' : Store ℤ} {ref : ItemRef}
    {name uid : String} {j : Job} {k k' : Call ℤ} (hs : s.Named ref name)
    (h : j.At s₀ s ref name uid k) (ha : FreshStep s k s' k') :
    s'.stock ref + k'.drawn = s.stock ref + k.drawn := by
  obtain ⟨ha, hf⟩ := ha
  cases ha with
  | add ha =>
      cases j with
      | add n => exact AddAt.stock_acts hs h ha hf
      | remove _ => exact h.elim
  | delete ha =>
      cases j with
      | add _ => exact h.elim
      | remove _ =>
          obtain ⟨_, -, hat, -⟩ := h
          have hst := hat.stock_acts ha hf
          simp only [Call.drawn]
          omega

/-- The stock never goes below zero: an add is refused first. -/
theorem Job.At.stock_nonneg {s₀ s s' : Store ℤ} {ref : ItemRef}
    {name uid : String} {j : Job} {k k' : Call ℤ} (hs : s.Named ref name)
    (h : j.At s₀ s ref name uid k) (ha : FreshStep s k s' k')
    (hu : 0 ≤ j.units s₀ uid) (h0 : 0 ≤ s.stock ref) :
    0 ≤ s'.stock ref := by
  have hst := h.stock_acts hs ha
  obtain ⟨ha, hf⟩ := ha
  cases ha with
  | add ha =>
      cases j with
      | remove _ => exact h.elim
      | add n =>
          cases h with
          | updateStock hname hn =>
              cases ha with
              | updateStock _ _ _ hup =>
                  rw [Store.stock_updateItem hup, AddReq.of_ref, if_pos rfl]
                  omega
          | getItem | queryBasket => cases ha; exact h0
          | setLine => cases ha; exact h0
          | updateLines =>
              cases ha with
              | updateLine _ _ _ _ _ hk hup =>
                  rw [Store.stock, Store.updateLine_items hup]
                  exact h0
          | done => cases ha
          | refused => cases ha
  | delete ha =>
      cases j with
      | add _ => exact h.elim
      | remove lineID =>
          obtain ⟨d, hd, hat, -⟩ := h
          simp only [Job.units, hd, Option.map_some, Option.getD_some] at hu
          cases hat with
          | updateStock =>
              cases ha
              simp only [Call.drawn, DeleteCall.restocked] at hst
              omega
          | getLine | getItem => cases ha; exact h0
          | deleteLine => cases ha; exact h0
          | done => cases ha
          | gone => cases ha

/-! ## What an add places

What an accepted add has taken ends up in its caller's basket. With at most one
line of the name there the basket has grown by exactly that. -/

section Places

variable {s₀ s s' : Store ℤ} {ref : ItemRef} {uid name : String} {n prev : ℤ}
  {c c' : AddCall ℤ}

/-- The user's only line of the name has `n` units, and without one `n` is
zero. -/
abbrev Store.OneNamed (s : Store ℤ) (uid name : String) (n : ℤ) : Prop :=
  s.OneOf uid (fun d => d.name = some name) n

/-- How far the caller's basket has got: as in `s₀` until the add writes
there, and then with so many units more. -/
def AddCall.Places (s₀ s : Store ℤ) (uid name : String) (prev : ℤ) :
    AddCall ℤ → Prop
  | .setLine _ _ _ => (∀ l, s.line uid l = s₀.line uid l) ∧
      ∀ l d, s₀.line uid l = some d → d.name ≠ some name
  | .updateLines req _ pending _ => (∀ l, s.line uid l = s₀.line uid l) ∧
      ∃ l d, s₀.line uid l = some d ∧ d.name = some name ∧
        pending = [(l, d.count + req.elementCount)]
  | .done req => s.OneNamed uid name (prev + req.elementCount)
  | _ => ∀ l, s.line uid l = s₀.line uid l

theorem AddCall.Places.congr (h : c.Places s₀ s uid name prev)
    (hl : ∀ l, s'.line uid l = s.line uid l) :
    c.Places s₀ s' uid name prev := by
  have hsame : (∀ l, s.line uid l = s₀.line uid l) →
      ∀ l, s'.line uid l = s₀.line uid l := fun h l => (hl l).trans (h l)
  cases c with
  | getItem | updateStock | queryBasket | failed => exact hsame h
  | setLine | updateLines => exact ⟨hsame h.1, h.2⟩
  | done req => exact Store.OneOf.congr h hl

theorem AddAt.places (hs : s.Named ref name)
    (hone : s₀.OneNamed uid name prev) (hat : AddAt ref uid n name c)
    (h : c.Places s₀ s uid name prev) (ha : AddCall.Acts s c s' c') :
    c'.Places s₀ s' uid name prev := by
  cases hat with
  | getItem =>
      cases ha
      obtain ⟨item, hi, -⟩ := hs
      rw [AddReq.of_ref, hi, AddCall.onItem_of]
      split <;> exact h
  | updateStock hname hn =>
      cases ha with
      | updateStock _ _ _ hu =>
          rw [AddCall.onStockUpdated_of hname]
          exact fun l => (Store.updateItem_line hu uid l).trans (h l)
  | queryBasket hname =>
      cases ha
      have hone' : s.OneNamed uid name prev := hone.congr h
      rcases Store.linesNamed_cases fun l l' d d' hl hn hl' hn' =>
        hone'.eq_line hl hn hl' hn' with hq | ⟨l, d, hl, hn, hq⟩
      · rw [hq]
        refine ⟨h, fun l d hd => ?_⟩
        exact Store.linesNamed_eq_nil.mp hq l d ((h l).trans hd)
      · rw [hq]
        exact ⟨h, l, d, (h l).symm.trans hl, hn, rfl⟩
  | @setLine d hname href hcount =>
      cases ha
      obtain ⟨hl, hnone⟩ := h
      show Store.OneNamed _ uid name (prev + n)
      rw [← hcount]
      exact (hone.congr hl).setLine (fun l d hd => hnone l d (hl l ▸ hd)) hname
  | updateLines =>
      cases ha with
      | @updateLine _ _ _ _ k l' m _ hk hu =>
          obtain ⟨hl, l, d, hd, hname, rfl⟩ := h
          obtain ⟨rfl, rfl, rfl⟩ : k = 0 ∧ l' = l ∧ m = d.count + n := by
            cases k with
            | zero => simpa [eq_comm, AddReq.of] using hk
            | succ k => simp at hk
          have hd' := (hl _).trans hd
          obtain ⟨d', he, rfl⟩ := Store.updateLine_eq_some.mp hu
          obtain rfl : d' = d := Option.some.inj (he.symm.trans hd')
          exact (hone.congr hl).updateLine hd' hname hname
  | done => cases ha
  | refused => cases ha

end Places

/-! ## The counts add up -/

section Run

variable {ι : Type} {ref : ItemRef} {name : String} {s₀ : Store ℤ}
  {user : ι → String} {jobs : ι → Job}

def Standing (s₀ : Store ℤ) (ref : ItemRef) (name : String)
    (user : ι → String) (jobs : ι → Job)
    (c : Config ι (Store ℤ) (Call ℤ)) : Prop :=
  c.shared.Named ref name ∧
    ∀ i, (jobs i).At s₀ c.shared ref name (user i) (c.locals i)

theorem Job.At.start {uid : String} {j : Job} (hj : j.Valid s₀ ref uid) :
    j.At s₀ s₀ ref name uid (j.start ref uid) := by
  cases j with
  | add n => exact AddAt.getItem
  | remove lineID =>
      obtain ⟨d, hd, -⟩ := hj
      exact ⟨d, hd, .getLine, by simp, fun _ _ => hd⟩

theorem standing_start (hname : s₀.Named ref name)
    (hjobs : ∀ i, (jobs i).Valid s₀ ref (user i)) :
    Standing s₀ ref name user jobs
      ⟨s₀, fun i => (jobs i).start ref (user i)⟩ := by
  exact ⟨hname, fun i => Job.At.start (hjobs i)⟩

theorem Standing.act [DecidableEq ι] (huser : Function.Injective user)
    {c : Config ι (Store ℤ) (Call ℤ)} (h : Standing s₀ ref name user jobs c)
    {i : ι} {s : Store ℤ} {k : Call ℤ}
    (ha : Call.Acts c.shared (c.locals i) s k) :
    Standing s₀ ref name user jobs (c.act i s k) := by
  obtain ⟨hs, hat⟩ := h
  refine ⟨hs.acts ha, fun j => ?_⟩
  by_cases hj : j = i
  · subst hj
    rw [Config.act_self]
    exact (hat j).own hs ha
  · rw [Config.act_ne c s k hj]
    have hu : user j ≠ user i := fun he => hj (huser he)
    exact (hat j).other fun lineID => (hat i).line_acts ha hu lineID

def Call.Places (s₀ s : Store ℤ) (uid name : String) (prev : ℤ) :
    Call ℤ → Prop
  | .add c => c.Places s₀ s uid name prev
  | .delete _ => True

/-- Every add is that far, if there is at most one line for it to find. -/
def Placing (s₀ : Store ℤ) (name : String) (user : ι → String)
    (jobs : ι → Job) (c : Config ι (Store ℤ) (Call ℤ)) : Prop :=
  ∀ i n prev, jobs i = .add n → s₀.OneNamed (user i) name prev →
    (c.locals i).Places s₀ c.shared (user i) name prev

theorem placing_start : Placing s₀ name user jobs
    ⟨s₀, fun i => (jobs i).start ref (user i)⟩ := by
  intro i n prev hj _
  simp only [hj, Job.start]
  exact fun _ => rfl

theorem Standing.placing_act [DecidableEq ι]
    (huser : Function.Injective user) {c : Config ι (Store ℤ) (Call ℤ)}
    (h : Standing s₀ ref name user jobs c) (hp : Placing s₀ name user jobs c)
    {i : ι} {s : Store ℤ} {k : Call ℤ}
    (ha : Call.Acts c.shared (c.locals i) s k) :
    Placing s₀ name user jobs (c.act i s k) := by
  obtain ⟨hs, hat⟩ := h
  intro j n prev hj hone
  have hpj := hp j n prev hj hone
  by_cases hji : j = i
  · subst hji
    rw [Config.act_self, Config.act_shared]
    have hatj := hat j
    rw [hj] at hatj
    generalize c.locals j = x at ha hatj hpj
    cases ha with
    | add ha => exact AddAt.places hs hone hatj hpj ha
    | delete => trivial
  · rw [Config.act_ne c s k hji, Config.act_shared]
    have hu : user j ≠ user i := fun he => hji (huser he)
    have hl : ∀ l, s.line (user j) l = c.shared.line (user j) l :=
      fun l => (hat i).line_acts ha hu l
    cases hk : c.locals j with
    | add x =>
        rw [hk] at hpj
        exact AddCall.Places.congr hpj hl
    | delete => trivial

/-- An add that has ended has placed what it was accepted for. -/
theorem Job.At.oneNamed_finished {s : Store ℤ} {uid : String} {n prev : ℤ}
    {k : Call ℤ} (h : (Job.add n).At s₀ s ref name uid k)
    (hone : s₀.OneNamed uid name prev)
    (hp : k.Places s₀ s uid name prev) (hf : k.Finished) :
    s.OneNamed uid name (prev + k.placed) := by
  cases k with
  | delete => exact h.elim
  | add c =>
      cases c with
      | done req => exact hp
      | failed req e =>
          show s.OneNamed uid name (prev + 0)
          rw [add_zero]
          exact hone.congr hp
      | getItem | updateStock | queryBasket | setLine | updateLines =>
          exact hf.elim

theorem Job.At.drawn_finished {s : Store ℤ} {uid : String} {j : Job}
    {k : Call ℤ} (h : j.At s₀ s ref name uid k) (hf : k.Finished) :
    k.drawn = k.placed - j.units s₀ uid := by
  cases k with
  | add c =>
      cases j with
      | remove _ => exact h.elim
      | add n =>
          cases h with
          | done => simp [Call.drawn, AddCall.taken, Call.placed,
              AddCall.placed, Job.units]
          | refused => simp [Call.drawn, AddCall.taken, Call.placed,
              AddCall.placed, Job.units]
          | getItem | updateStock | queryBasket | setLine | updateLines =>
              exact hf.elim
  | delete c =>
      cases j with
      | add _ => exact h.elim
      | remove lineID =>
          obtain ⟨d, hd, hat, hnf, -⟩ := h
          cases hat with
          | done =>
              simp [Call.drawn, DeleteCall.restocked, Call.placed, Job.units,
                hd]
          | gone => exact absurd rfl (hnf _ _)
          | getLine | deleteLine | getItem | updateStock => exact hf.elim

end Run

/-- The stock is its initial count, less what accepted adds have placed, plus
what removed lines held; and no more is placed than was there or came back. -/
def StockAddsUp {ι : Type} [Fintype ι] (ref : ItemRef) (s₀ : Store ℤ)
    (user : ι → String) (jobs : ι → Job)
    (c : Config ι (Store ℤ) (Call ℤ)) : Prop :=
  c.shared.stock ref = s₀.stock ref - ∑ i, (c.locals i).placed +
      ∑ i, (jobs i).units s₀ (user i) ∧
    (0 ≤ s₀.stock ref → (∀ i, 0 ≤ (jobs i).units s₀ (user i)) →
      ∑ i, (c.locals i).placed ≤
        s₀.stock ref + ∑ i, (jobs i).units s₀ (user i))

/-- In a basket with at most one line of the name an add leaves exactly as many
more units as it has placed. -/
def BasketsGrow {ι : Type} (name : String) (s₀ : Store ℤ) (user : ι → String)
    (jobs : ι → Job) (c : Config ι (Store ℤ) (Call ℤ)) : Prop :=
  ∀ i n prev, jobs i = .add n → s₀.OneNamed (user i) name prev →
    c.shared.OneNamed (user i) name (prev + (c.locals i).placed)

/-- In a run whose stock writes are all fresh the counts add up, and what is
placed is in the baskets. -/
theorem stock_adds_up {ι : Type} [Fintype ι] [DecidableEq ι] {ref : ItemRef}
    {name : String} {s₀ : Store ℤ} {user : ι → String} {jobs : ι → Job}
    (hname : s₀.Named ref name) (huser : Function.Injective user)
    (hjobs : ∀ i, (jobs i).Valid s₀ ref (user i))
    {c : Config ι (Store ℤ) (Call ℤ)}
    (hrun : Run (fun _ => FreshStep)
      ⟨s₀, fun i => (jobs i).start ref (user i)⟩ c)
    (hfin : ∀ i, (c.locals i).Finished) :
    StockAddsUp ref s₀ user jobs c ∧ BasketsGrow name s₀ user jobs c := by
  have hstart := standing_start hname hjobs
  have hinv : ∀ (d : Config ι (Store ℤ) (Call ℤ)) i s k,
      Standing s₀ ref name user jobs d →
      FreshStep d.shared (d.locals i) s k →
      Standing s₀ ref name user jobs (d.act i s k) :=
    fun d i s k h hs => h.act huser hs.1
  have hboth : Standing s₀ ref name user jobs c ∧
      Placing s₀ name user jobs c :=
    Run.invariant (I := fun d => Standing s₀ ref name user jobs d ∧
        Placing s₀ name user jobs d)
      (fun d i s k h hs => ⟨hinv d i s k h.1 hs,
        h.1.placing_act huser h.2 hs.1⟩)
      hrun ⟨hstart, placing_start⟩
  obtain ⟨hend, hplacing⟩ := hboth
  have hbal := Run.ledger (fun s : Store ℤ => s.stock ref)
    (fun _ : ι => Call.drawn) hinv
    (fun d i s k h hs => (h.2 i).stock_acts h.1 hs) hrun hstart
  have hzero : ∀ i, ((jobs i).start ref (user i)).drawn = 0 := by
    intro i
    cases jobs i <;> rfl
  have hdrawn : ∑ i, (c.locals i).drawn =
      ∑ i, (c.locals i).placed - ∑ i, (jobs i).units s₀ (user i) := by
    rw [← Finset.sum_sub_distrib]
    exact Finset.sum_congr rfl fun i _ => (hend.2 i).drawn_finished (hfin i)
  simp only [Config.balance, hzero, hdrawn, Finset.sum_const_zero,
    add_zero] at hbal
  refine ⟨⟨by omega, fun h0 hu => ?_⟩, fun i n prev hj hone =>
    Job.At.oneNamed_finished (hj ▸ hend.2 i) hone (hplacing i n prev hj hone)
      (hfin i)⟩
  have hnonneg : Standing s₀ ref name user jobs c ∧ 0 ≤ c.shared.stock ref := by
    refine Run.invariant (I := fun d => Standing s₀ ref name user jobs d ∧
      0 ≤ d.shared.stock ref) ?_ hrun ⟨hstart, h0⟩
    intro d i s k hd hs
    obtain ⟨hd, hd0⟩ := hd
    exact ⟨hinv d i s k hd hs, (hd.2 i).stock_nonneg hd.1 hs (hu i) hd0⟩
  have hstock := hnonneg.2
  omega

/-- Two cameras in stock, one in bob's basket. Ann adds one and has her line;
then bob's line is removed. -/
theorem stock_adds_up_cameras :
    ∃ c, Run (fun _ => FreshStep)
        ⟨(cameras 2).setLine "bob" "l" (cameraLine 1), fun i : Bool =>
          (bif i then Job.add 1 else .remove "l").start camera
            (bif i then "ann" else "bob")⟩ c ∧
      StockAddsUp camera ((cameras 2).setLine "bob" "l" (cameraLine 1))
        (fun i => bif i then "ann" else "bob")
        (fun i => bif i then .add 1 else .remove "l") c ∧
      BasketsGrow "Camera" ((cameras 2).setLine "bob" "l" (cameraLine 1))
        (fun i => bif i then "ann" else "bob")
        (fun i => bif i then .add 1 else .remove "l") c := by
  obtain ⟨c, hrun, hfin⟩ : ∃ c, Run (fun _ => FreshStep)
      ⟨(cameras 2).setLine "bob" "l" (cameraLine 1), fun i : Bool =>
        (bif i then Job.add 1 else .remove "l").start camera
          (bif i then "ann" else "bob")⟩ c ∧ ∀ i, (c.locals i).Finished :=
    exists_run_of_play (fun _ => Call.act? Call.StockFresh)
      (fun _ _ _ _ _ _ => Call.acts_of_act?)
      [(true, "a", 0), (true, "a", 0), (true, "a", 0), (true, "a", 0),
        (false, "", 0), (false, "", 0), (false, "", 0), (false, "", 0)]
      (by decide +kernel)
  have hnamed : Store.Named
      ((cameras (2 : ℤ)).setLine "bob" "l" (cameraLine 1)) camera "Camera" :=
    ⟨_, rfl, rfl⟩
  refine ⟨c, hrun, stock_adds_up hnamed ?_ ?_ hrun hfin⟩
  · decide
  · intro i
    cases i
    · exact ⟨cameraLine 1, by simp [Store.line_setLine], rfl⟩
    · exact le_refl _

/-- One camera in stock. Both ann and bob read that before either writes, and
both get it. -/
theorem stock_oversold :
    ∃ c, Run (fun _ => Call.Acts)
        ⟨cameras 1, fun i : Bool =>
          (Job.add 1).start camera (bif i then "ann" else "bob")⟩ c ∧
      (∀ i, (c.locals i).Finished) ∧
      c.shared.stock camera = 0 ∧ ∑ i, (c.locals i).placed = 2 ∧
      ¬ StockAddsUp camera (cameras 1)
        (fun i => bif i then "ann" else "bob") (fun _ => .add 1) c := by
  obtain ⟨c, hrun, hfin, hstock, hplaced⟩ : ∃ c, Run (fun _ => Call.Acts)
      ⟨cameras 1, fun i : Bool =>
        (Job.add 1).start camera (bif i then "ann" else "bob")⟩ c ∧
      (∀ i, (c.locals i).Finished) ∧
      c.shared.stock camera = 0 ∧ ∑ i, (c.locals i).placed = 2 :=
    exists_run_of_play (fun _ => Call.act? fun _ _ => True)
      (fun _ _ _ _ _ _ h => (Call.acts_of_act? h).1)
      [(true, "", 0), (false, "", 0), (true, "", 0), (false, "", 0),
        (true, "", 0), (true, "a", 0), (false, "", 0), (false, "b", 0)]
      (by decide +kernel)
  refine ⟨c, hrun, hfin, hstock, hplaced, fun h => ?_⟩
  have h1 := h.1
  rw [hstock, hplaced] at h1
  exact absurd h1 (by decide +kernel)

end PhoRent
