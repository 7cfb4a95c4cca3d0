import Mathlib.Algebra.BigOperators.Ring.Finset
import PhoRent.Proofs.OrderHistory

/-!
# How a load of the order history ends

A countdown starts at the number of lines and goes down with every answer that
is a success. The answer that takes it to zero queues the block that tells the
view; a failure queues a block of its own.

So there is no end without a line, unless there is no order either, which is
looked after apart. And there are as many ends as failures, if there are any.
-/

namespace PhoRent

open Machine OrdersScreen

namespace OrdersLoad

def lines (orders : List Order) : ℕ :=
  (orders.map fun order => order.items.length).sum

def failed (s : OrdersLoad) : ℕ := s.answers.count .failure

def Possible (s : OrdersLoad) : LoadEvent → Prop
  | .filled k _ => k < s.screen.inFlight.length
  | .tableBlock => 0 < s.screen.blocks
  | .failureBlock => 0 < s.failures

structure Done (s : OrdersLoad) : Prop where
  inFlight : s.screen.inFlight = []
  blocks : s.screen.blocks = 0
  failures : s.failures = 0

/-- The view has been told once, and what there was to tell. -/
def EndedOnce (s : OrdersLoad) : Prop :=
  s.told = [if s.failed = 0 then .table else .failure]

/-- The countdown, the requests and what is told or about to be told, by the
number of answers. -/
structure Counted (orders : List Order) (s : OrdersLoad) : Prop where
  fitting : s.screen.Fitting
  fills : ∀ r ∈ s.screen.inFlight, r.fill = 0
  answered : s.screen.inFlight.length + s.answers.length = lines orders
  counts : s.screen.counts =
    [(lines orders : ℤ) - (s.answers.length - s.failed : ℤ)]
  failures : s.told.count .failure + s.failures = s.failed
  tables : s.told.count .table + s.screen.blocks =
    (if orders = [] then 1 else 0) +
      if 0 < lines orders ∧ s.answers.length = s.failed + lines orders then 1
      else 0

/-- What an answer does to the numbers. Only a success counts down. -/
structure Answered (orders : List Order) (s s' : OrdersLoad) (k : ℕ)
    (result : FillResult) : Prop where
  found : k < s.screen.inFlight.length
  inFlight : s'.screen.inFlight = s.screen.inFlight.eraseIdx k
  answers : s'.answers = s.answers ++ [result]
  told : s'.told = s.told
  counted : (result = .failure ∧ s'.screen.counts = s.screen.counts ∧
      s'.screen.blocks = s.screen.blocks ∧ s'.failures = s.failures + 1) ∨
    (result ≠ .failure ∧ s'.failures = s.failures ∧
      ∃ count : ℤ, count = lines orders - (s.answers.length - s.failed) - 1 ∧
        s'.screen.counts = [count] ∧ s'.screen.blocks =
          if count = 0 then s.screen.blocks + 1 else s.screen.blocks)

section Steps

variable {orders : List Order} {s s' : OrdersLoad}

theorem failed_le (s : OrdersLoad) : s.failed ≤ s.answers.length :=
  List.count_le_length

theorem length_requests (fill : ℕ) (orders : List Order) :
    (requests fill orders).length = lines orders := by
  have hfst : orders.zipIdx.map (fun e => e.1.items.length) =
      orders.map fun order => order.items.length := by
    calc orders.zipIdx.map (fun e => e.1.items.length)
        = (orders.zipIdx.map Prod.fst).map
            fun order => order.items.length := by rw [List.map_map]; rfl
      _ = orders.map fun order => order.items.length := by
          rw [List.zipIdx_map_fst]
  rw [requests, List.length_flatMap, lines, ← hfst]
  simp only [List.length_map, List.length_zipIdx]

theorem fill_requests {fill : ℕ} {r : FillRequest}
    (h : r ∈ requests fill orders) : r.fill = fill := by
  rw [requests, List.mem_flatMap] at h
  obtain ⟨⟨order, i⟩, -, hr⟩ := h
  obtain ⟨⟨item, j⟩, -, rfl⟩ := List.mem_map.mp hr
  rfl

theorem inFlight_start (orders : List Order) :
    (start orders).screen.inFlight = requests 0 orders := by
  rw [start, OrdersScreen.snapshot]
  split <;> rfl

theorem counted_start (orders : List Order) :
    (start orders).Counted orders where
  fitting := by
    refine fitting_snapshot fun r hr => ?_
    cases hr
  fills r hr := by
    rw [inFlight_start] at hr
    exact fill_requests hr
  answered := by
    rw [inFlight_start, length_requests]
    rfl
  counts := by
    have hcounts : (start orders).screen.counts =
        [(orders.map fun order => (order.items.length : ℤ)).sum] := by
      rw [start, OrdersScreen.snapshot]
      split <;> rfl
    rw [hcounts, lines, Nat.cast_list_sum, List.map_map]
    simp [start, failed, Function.comp_def]
  failures := by
    simp only [start, failed]
    split <;> rfl
  tables := by
    have hblocks : (start orders).screen.blocks = 0 := by
      rw [start, OrdersScreen.snapshot]
      split <;> rfl
    have hnone : ¬ (0 < lines orders ∧ (start orders).answers.length =
        (start orders).failed + lines orders) := by
      rintro ⟨hlines, hanswers⟩
      change 0 = 0 + lines orders at hanswers
      omega
    rw [hblocks, if_neg hnone, start]
    split <;> rfl

theorem Counted.answered_filled (h : s.Counted orders) {k : ℕ}
    {result : FillResult} (hs : s.handle (.filled k result) = some s') :
    Answered orders s s' k result := by
  obtain ⟨screen, hscreen, rfl⟩ := Option.map_eq_some_iff.mp hs
  obtain ⟨r, hr, hfilled⟩ := Option.bind_eq_some_iff.mp hscreen
  have hk := (List.getElem?_eq_some_iff.mp hr).1
  have hfill := h.fills r (List.mem_of_getElem? hr)
  cases result with
  | failure =>
      obtain rfl := Option.some.inj hfilled
      exact ⟨hk, rfl, rfl, rfl, Or.inl ⟨rfl, rfl, rfl, rfl⟩⟩
  | success data =>
      obtain ⟨item, -, rfl⟩ := Option.map_eq_some_iff.mp hfilled
      refine ⟨hk, rfl, rfl, rfl, Or.inr ⟨nofun, rfl, _, rfl, ?_, ?_⟩⟩
      · simp only [h.counts, hfill, List.getElem?_cons_zero, Option.getD_some,
          List.set_cons_zero]
      · simp only [h.counts, hfill, List.getElem?_cons_zero, Option.getD_some]

theorem Counted.filled (h : s.Counted orders) {k : ℕ} {result : FillResult}
    (hs : s.handle (.filled k result) = some s') : s'.Counted orders := by
  have hfitting : s'.screen.Fitting := by
    obtain ⟨screen, hscreen, rfl⟩ := Option.map_eq_some_iff.mp hs
    exact h.fitting.handle (e := .filled k result) trivial hscreen
  obtain ⟨hk, hflight, hanswers, htold, hresult⟩ := h.answered_filled hs
  have hfills : ∀ r ∈ s'.screen.inFlight, r.fill = 0 := by
    rw [hflight]
    exact fun r hr => h.fills r (List.mem_of_mem_eraseIdx hr)
  have hlength : s'.answers.length = s.answers.length + 1 := by
    rw [hanswers, List.length_append, List.length_singleton]
  have hle := s.failed_le
  have hanswered := h.answered
  have hall : s'.screen.inFlight.length + s'.answers.length = lines orders := by
    rw [hflight, List.length_eraseIdx_of_lt hk]
    omega
  rcases hresult with ⟨rfl, hcounts, hblocks, hfailures⟩ |
    ⟨hsuccess, hfailures, count, hcount, hcounts, hblocks⟩
  · have hfailed : s'.failed = s.failed + 1 := by
      rw [failed, hanswers, List.count_append, List.count_singleton_self, failed]
    refine ⟨hfitting, hfills, hall, ?_, ?_, ?_⟩
    · rw [hcounts, h.counts]
      congr 1
      omega
    · rw [htold, hfailures, hfailed, ← h.failures, add_assoc]
    · rw [htold, hblocks, h.tables]
      refine congrArg _ (if_congr (and_congr_right fun _ => ?_) rfl rfl)
      omega
  · have hfailed : s'.failed = s.failed := by
      rw [failed, hanswers, List.count_append, failed,
        List.count_singleton, if_neg (by simpa using hsuccess), add_zero]
    refine ⟨hfitting, hfills, hall, ?_, ?_, ?_⟩
    · rw [hcounts, hcount]
      congr 1
      omega
    · rw [htold, hfailures, hfailed, h.failures]
    · -- the countdown was not at zero before this answer
      have hbefore : ¬ (0 < lines orders ∧
          s.answers.length = s.failed + lines orders) := by omega
      have htables := h.tables
      rw [if_neg hbefore] at htables
      have hafter : 0 < lines orders ∧
          s'.answers.length = s'.failed + lines orders ↔ count = 0 := by omega
      rw [htold, hblocks, if_congr hafter rfl rfl]
      by_cases hzero : count = 0
      · rw [if_pos hzero, if_pos hzero]
        omega
      · rw [if_neg hzero, if_neg hzero]
        omega

theorem Counted.handle {e : LoadEvent} (h : s.Counted orders)
    (hs : s.handle e = some s') : s'.Counted orders := by
  cases e with
  | filled k result => exact h.filled hs
  | tableBlock =>
      obtain ⟨screen, hscreen, rfl⟩ := Option.map_eq_some_iff.mp hs
      have hfitting := h.fitting.handle (e := .block) trivial hscreen
      simp only [OrdersScreen.handle] at hscreen
      split at hscreen
      · cases hscreen
      next hblocks =>
        obtain rfl := Option.some.inj hscreen
        have hfailure : (s.told ++ [LoadEnd.table]).count .failure =
            s.told.count .failure := by simp [List.count_append]
        have htable : (s.told ++ [LoadEnd.table]).count .table =
            s.told.count .table + 1 := by
          rw [List.count_append, List.count_singleton_self]
        refine ⟨hfitting, h.fills, h.answered, h.counts, ?_, ?_⟩
        · exact (congrArg (· + s.failures) hfailure).trans h.failures
        · refine Eq.trans ?_ h.tables
          change (s.told ++ [LoadEnd.table]).count .table +
            (s.screen.blocks - 1) = _
          omega
  | failureBlock =>
      simp only [OrdersLoad.handle] at hs
      split at hs
      · cases hs
      next hfailures =>
        obtain rfl := Option.some.inj hs
        have hfailure : (s.told ++ [LoadEnd.failure]).count .failure =
            s.told.count .failure + 1 := by
          rw [List.count_append, List.count_singleton_self]
        have htable : (s.told ++ [LoadEnd.failure]).count .table =
            s.told.count .table := by simp [List.count_append]
        refine ⟨h.fitting, h.fills, h.answered, h.counts, ?_, ?_⟩
        · refine Eq.trans ?_ h.failures
          change (s.told ++ [LoadEnd.failure]).count .failure +
            (s.failures - 1) = _
          omega
        · exact (congrArg (· + s.screen.blocks) htable).trans h.tables

theorem counted_of_run (h : Run OrdersLoad.handle Possible (start orders) s) :
    s.Counted orders :=
  h.invariant (fun _ _ _ h _ hs => h.handle hs) (counted_start orders)

theorem Counted.handled {e : LoadEvent} (h : s.Counted orders)
    (hok : s.Possible e) : s.handle e ≠ none := by
  cases e with
  | filled k result =>
      have hhandled := h.fitting.handled (e := .filled k result) hok trivial
      obtain ⟨screen, hscreen⟩ := Option.ne_none_iff_exists'.mp hhandled.1
      simp only [OrdersLoad.handle, hscreen]
      exact Option.some_ne_none _
  | tableBlock =>
      have hhandled := h.fitting.handled (e := .block) hok trivial
      obtain ⟨screen, hscreen⟩ := Option.ne_none_iff_exists'.mp hhandled.1
      rw [OrdersLoad.handle, hscreen]
      exact Option.some_ne_none _
  | failureBlock =>
      have hpos : s.failures ≠ 0 := Nat.pos_iff_ne_zero.mp hok
      rw [OrdersLoad.handle, if_neg hpos]
      exact Option.some_ne_none _

theorem length_told (l : List LoadEnd) :
    l.length = l.count .table + l.count .failure := by
  induction l with
  | nil => rfl
  | cons e rest ih =>
      rw [List.length_cons, ih]
      cases e with
      | table => simp [add_right_comm]
      | failure => simp [add_assoc]

theorem told_eq_iff {l : List LoadEnd} {e : LoadEnd} :
    l = [e] ↔ l.count .table + l.count .failure = 1 ∧ l.count e = 1 := by
  rw [← length_told]
  constructor
  · rintro rfl
    exact ⟨rfl, List.count_singleton_self⟩
  · rintro ⟨hlength, hcount⟩
    obtain ⟨e', rfl⟩ := List.length_eq_one_iff.mp hlength
    have hmem : e ∈ [e'] := List.count_pos_iff.mp (by omega)
    rw [List.mem_singleton.mp hmem]

/-- How often the view has been told, and what, once everything is done. -/
theorem Counted.endedOnce_iff (h : s.Counted orders) (hdone : s.Done) :
    s.EndedOnce ↔
      (orders = [] ∨ 0 < lines orders) ∧ s.failed ≤ 1 := by
  have hall := h.answered
  have hfailures := h.failures
  have htables := h.tables
  have hle := s.failed_le
  have hnil : orders = [] → lines orders = 0 := by
    rintro rfl
    rfl
  rw [hdone.inFlight, List.length_nil] at hall
  rw [hdone.failures] at hfailures
  rw [hdone.blocks] at htables
  rw [EndedOnce, told_eq_iff]
  by_cases hfailed : s.failed = 0
  · rw [if_pos hfailed]
    by_cases horders : orders = []
    · rw [if_pos horders] at htables
      have hzero := hnil horders
      rw [if_neg (by omega)] at htables
      exact iff_of_true (by omega) ⟨Or.inl horders, by omega⟩
    · rw [if_neg horders] at htables
      have hsome : 0 < lines orders ∧
          s.answers.length = s.failed + lines orders ↔ 0 < lines orders := by
        omega
      rw [if_congr hsome rfl rfl] at htables
      rw [or_iff_right horders]
      split at htables
      · omega
      · omega
  · have horders : orders ≠ [] := fun hempty => by
      have hzero := hnil hempty
      omega
    rw [if_neg horders, if_neg (by omega)] at htables
    rw [if_neg hfailed, or_iff_right horders]
    omega

end Steps

/-- One snapshot of any orders, and answers and blocks in any order: nothing
traps, and once everything is answered and run, the view has been told exactly
once and truthfully how the load ended, exactly if there was no order at all
or at least one line, and no more than one answer was a failure. -/
theorem load_ends_once_iff {orders : List Order} {s : OrdersLoad}
    (h : Run OrdersLoad.handle Possible (start orders) s) :
    (∀ e, s.Possible e → s.handle e ≠ none) ∧
      (s.Done → (s.EndedOnce ↔
        (orders = [] ∨ 0 < lines orders) ∧ s.failed ≤ 1)) :=
  ⟨fun _ => (counted_of_run h).handled, (counted_of_run h).endedOnce_iff⟩

instance (s : OrdersLoad) : DecidablePred s.Possible
  | .filled k _ => inferInstanceAs (Decidable (k < s.screen.inFlight.length))
  | .tableBlock => inferInstanceAs (Decidable (0 < s.screen.blocks))
  | .failureBlock => inferInstanceAs (Decidable (0 < s.failures))

instance (s : OrdersLoad) : Decidable s.Done :=
  decidable_of_iff (s.screen.inFlight = [] ∧ s.screen.blocks = 0 ∧
      s.failures = 0)
    ⟨fun h => ⟨h.1, h.2.1, h.2.2⟩, fun h => ⟨h.1, h.2, h.3⟩⟩

instance (s : OrdersLoad) : Decidable s.EndedOnce :=
  inferInstanceAs (Decidable (s.told = _))

/-- Two orders, the answers in the other order. -/
theorem load_ends_once_camera :
    ∃ s, Run OrdersLoad.handle Possible
        (start [pastOrder "01.06.2020" "cam", pastOrder "05.06.2020" "tri"]) s ∧
      s.answers.length = 2 ∧ s.EndedOnce := by
  obtain ⟨s, hrun, hdone, hanswers, hfailed⟩ :
      ∃ s, Run OrdersLoad.handle Possible
        (start [pastOrder "01.06.2020" "cam", pastOrder "05.06.2020" "tri"]) s ∧
      s.Done ∧ s.answers.length = 2 ∧ s.failed = 0 :=
    exists_run_of_play
      [.filled 1 (.success ⟨"Tripod", 100, "", ""⟩),
        .filled 0 (.success catalogCamera), .tableBlock] (by decide +kernel)
  refine ⟨s, hrun, hanswers, ((load_ends_once_iff hrun).2 hdone).mpr ?_⟩
  exact ⟨Or.inr (by decide), by omega⟩

/-- An order without lines: the view is never told. Two lines that cannot be
filled: it is told twice. -/
theorem load_ends_once_fails :
    (∃ s, Run OrdersLoad.handle Possible
        (start [⟨"", "01.06.2020", 1, "В работе", []⟩]) s ∧
      s.Done ∧ s.told = [] ∧ ¬ s.EndedOnce) ∧
    ∃ s, Run OrdersLoad.handle Possible
        (start [pastOrder "01.06.2020" "cam", pastOrder "05.06.2020" "tri"]) s ∧
      s.Done ∧ s.told = [.failure, .failure] ∧ ¬ s.EndedOnce :=
  ⟨exists_run_of_play [] (by decide +kernel),
    exists_run_of_play
      [.filled 0 .failure, .filled 0 .failure, .failureBlock, .failureBlock]
      (by decide +kernel)⟩

end OrdersLoad

end PhoRent
