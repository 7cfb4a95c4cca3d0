import PhoRent.App.Completions

/-!
# Completions are called once

A caller waits for its completion to be called, and believes what it is told.
So once the backend has answered everything a method has sent, the completion
should have been called exactly once, and with success exactly if everything
went well.

The methods with one operation keep to this, and so does `signUp`, which sends
its second when the first has succeeded. The callables report success before
anything is known, so they are right only if nothing fails. An order reports
the fate of its document and then every delete that fails on top.
-/

namespace PhoRent

open Requests

/-- The completion has been called once, truthfully. -/
def CompletedOnce (p : Progress NetOp Reply Completion) : Prop :=
  ∃ c, p.called = [c] ∧
    (c.isSuccess = true ↔ ∀ e ∈ p.log, e.2.ok = true)

def NetCall.Valid : NetCall → Prop
  | .passwordDrop email => ∃ text, email = some text ∧ text ≠ ""
  | _ => True

/-- The answers under which the method keeps its word: the callable succeeds,
no delete of an order fails. -/
def NetCall.Kept (log : List (NetOp × Reply)) : NetCall → Prop
  | .addItemInBasket _ _ _ | .removeFromBasket _ _ _ =>
      ∀ e ∈ log, e.2.ok = true
  | .putOrder _ => ∀ e ∈ log, ∀ userID itemID,
      e.1 = .write userID (.delete itemID) → e.2.ok = true
  | _ => True

namespace NetworkService

variable {p : Progress NetOp Reply Completion} {op : NetOp} {uid : String}

/-! ## One operation -/

theorem oneShot_log {m : NetMethod} (hflat : ∀ op r, (m.answer op r).1 = [])
    (hops : m.ops = [op]) (hrun : m.Run m.start p) (hdone : p.inFlight = []) :
    ∃ reply, p.log = [(op, reply)] ∧
      p.called = m.outs ++ (m.answer op reply).2 := by
  have hlog := hrun.flat hflat hdone
  rw [hops, List.perm_singleton, List.map_eq_singleton_iff] at hlog
  obtain ⟨e, hlog, rfl⟩ := hlog
  refine ⟨e.2, hlog, ?_⟩
  rw [hrun.called, hlog, List.flatMap_singleton]

theorem oneShot_once
    {done : Option (List (String × FieldValue)) → Completion}
    (hdone : ∀ document, (done document).isSuccess = true)
    (hrun : (oneShot op done).Run (oneShot op done).start p)
    (hend : p.inFlight = []) : CompletedOnce p := by
  have hflat : ∀ op' r, ((oneShot op done).answer op' r).1 = [] := by
    intro op' r
    cases r <;> rfl
  obtain ⟨reply, hlog, hcalled⟩ := oneShot_log hflat rfl hrun hend
  rw [CompletedOnce, hlog, hcalled]
  cases reply with
  | success document =>
      refine ⟨done document, rfl, ?_⟩
      simp [hdone, Reply.ok]
  | failure error =>
      refine ⟨.failure error, rfl, ?_⟩
      simp [Completion.isSuccess, Reply.ok]

/-- A callable that fails has either reported success already and nothing
else, or both. -/
theorem callable_once_iff {text : String}
    (hrun : (callable op text).Run (callable op text).start p)
    (hend : p.inFlight = []) :
    CompletedOnce p ↔ ∀ e ∈ p.log, e.2.ok = true := by
  have hflat : ∀ op' r, ((callable op text).answer op' r).1 = [] := by
    intro op' r
    cases r <;> rfl
  obtain ⟨reply, hlog, hcalled⟩ := oneShot_log hflat rfl hrun hend
  rw [CompletedOnce, hlog, hcalled]
  cases reply with
  | success document =>
      simp [callable, Reply.ok, Completion.isSuccess]
  | failure error =>
      by_cases hdomain : error.domain = FunctionsErrorDomain <;>
        simp [callable, hdomain, Reply.ok, Completion.isSuccess]

/-! ## `signUp` -/

section SignUp

variable {username email password : String}

/-- The points of a sign-up: the user is being created, then written down,
and then the completion has been called. -/
def SignUpAt (uid username email password : String)
    (p : Progress NetOp Reply Completion) : Prop :=
  p = ⟨[.createUser email password], [], []⟩ ∨
    (∃ document, p = ⟨[.setUser uid username email], [],
      [(.createUser email password, .success document)]⟩) ∨
    p.inFlight = [] ∧ CompletedOnce p

theorem SignUpAt.answers {p' : Progress NetOp Reply Completion}
    (h : SignUpAt uid username email password p)
    (hs : (signUp (some uid) username email password).Answers p p') :
    SignUpAt uid username email password p' := by
  obtain ⟨pre, post, op, reply, called, log⟩ := hs
  rcases h with h | ⟨document, h⟩ | ⟨h, -⟩
  · simp only [Progress.mk.injEq, List.append_eq_singleton_iff,
      List.cons.injEq, reduceCtorEq, and_false, or_false] at h
    obtain ⟨⟨rfl, rfl, rfl⟩, rfl, rfl⟩ := h
    cases reply with
    | success document => exact Or.inr (Or.inl ⟨document, rfl⟩)
    | failure error =>
        refine Or.inr (Or.inr ⟨rfl, .failure error, rfl, ?_⟩)
        simp [Completion.isSuccess, Reply.ok]
  · simp only [Progress.mk.injEq, List.append_eq_singleton_iff,
      List.cons.injEq, reduceCtorEq, and_false, or_false] at h
    obtain ⟨⟨rfl, rfl, rfl⟩, rfl, rfl⟩ := h
    refine Or.inr (Or.inr ⟨by cases reply <;> rfl, ?_⟩)
    cases reply with
    | success document =>
        refine ⟨.message "access is success", rfl, ?_⟩
        simp [Completion.isSuccess, Reply.ok]
    | failure error =>
        refine ⟨.failure error, rfl, ?_⟩
        simp [Completion.isSuccess, Reply.ok]
  · simp at h

theorem signUp_once
    (hrun : (signUp (some uid) username email password).Run
      (signUp (some uid) username email password).start p)
    (hend : p.inFlight = []) : CompletedOnce p := by
  have hat : SignUpAt uid username email password p := by
    clear hend
    induction hrun with
    | refl => exact Or.inl rfl
    | tail _ hs ih => exact ih.answers hs
  rcases hat with rfl | ⟨document, rfl⟩ | ⟨-, h⟩
  · cases hend
  · cases hend
  · exact h

end SignUp

/-! ## `putOrder` -/

section PutOrder

variable {order : Order}

def isDocument : NetOp → Bool
  | .write _ (.addDocument _) => true
  | _ => false

theorem putOrder_failure (op : NetOp) (error : NSError) :
    (putOrderMethod (some uid) order).answer op (.failure error) =
      ([], [.failure error]) := rfl

theorem putOrder_success (op : NetOp)
    (document : Option (List (String × FieldValue))) :
    (putOrderMethod (some uid) order).answer op (.success document) =
      ([], if isDocument op then [.message "success write document"]
        else []) := by
  cases op with
  | write userID w => cases w <;> rfl
  | _ => rfl

theorem putOrder_flat (op : NetOp) (reply : Reply) :
    ((putOrderMethod (some uid) order).answer op reply).1 = [] := by
  cases reply with
  | success document => rw [putOrder_success]
  | failure error => rw [putOrder_failure]

/-- One report for the document, one for each other write that fails. -/
theorem putOrder_reports (log : List (NetOp × Reply)) :
    (log.flatMap fun e =>
      ((putOrderMethod (some uid) order).answer e.1 e.2).2).length =
      log.countP (fun e => isDocument e.1) +
        log.countP fun e => !isDocument e.1 && !e.2.ok := by
  induction log with
  | nil => rfl
  | cons e rest ih =>
      rw [List.flatMap_cons, List.length_append, ih, List.countP_cons,
        List.countP_cons]
      obtain ⟨op, reply⟩ := e
      cases reply with
      | success document =>
          rw [putOrder_success]
          cases isDocument op with
          | true =>
              simp only [if_true, List.length_singleton, Bool.not_true,
                Bool.false_and, Bool.false_eq_true, if_false]
              omega
          | false =>
              simp only [Bool.false_eq_true, if_false, List.length_nil,
                Reply.ok, Bool.not_true, Bool.and_false]
              omega
      | failure error =>
          rw [putOrder_failure]
          cases isDocument op with
          | true =>
              simp only [if_true, List.length_singleton, Bool.not_true,
                Bool.false_and, Bool.false_eq_true, if_false]
              omega
          | false =>
              simp only [Bool.false_eq_true, if_false, List.length_singleton,
                Reply.ok, Bool.not_false, Bool.and_true, if_true]
              omega

theorem putOrder_called_length
    (hrun : (putOrderMethod (some uid) order).Run
      (putOrderMethod (some uid) order).start p) (hend : p.inFlight = []) :
    p.called.length =
      1 + p.log.countP fun e => !isDocument e.1 && !e.2.ok := by
  have hdeletes : ∀ items : List BasketItem,
      (items.map fun item => NetOp.write uid (.delete item.itemID)).countP
        isDocument = 0 := by
    intro items
    rw [List.countP_map, List.countP_eq_zero]
    intro item _
    exact Bool.false_ne_true
  have hdocument : p.log.countP (fun e => isDocument e.1) = 1 := by
    have hcount := (hrun.flat putOrder_flat hend).countP_eq isDocument
    rw [List.countP_map] at hcount
    refine hcount.trans ?_
    simp only [putOrderMethod, putOrder, List.map_cons, List.map_map,
      Function.comp_def, List.countP_cons, hdeletes]
    rfl
  have hcalled := congrArg List.length hrun.called
  rw [List.length_append, putOrder_reports, hdocument] at hcalled
  exact hcalled.trans (Nat.zero_add _)

theorem putOrder_delete {e : NetOp × Reply}
    (hrun : (putOrderMethod (some uid) order).Run
      (putOrderMethod (some uid) order).start p) (hend : p.inFlight = [])
    (he : e ∈ p.log) (hop : isDocument e.1 = false) :
    ∃ itemID, e.1 = .write uid (.delete itemID) := by
  have hmem : e.1 ∈ (putOrderMethod (some uid) order).ops := by
    rw [← (hrun.flat putOrder_flat hend).mem_iff]
    exact List.mem_map_of_mem he
  obtain ⟨w, hw, hew⟩ := List.mem_map.mp hmem
  rcases mem_putOrder.mp hw with rfl | ⟨item, -, rfl⟩
  · rw [← hew] at hop
    cases hop
  · exact ⟨item.itemID, hew.symm⟩

theorem putOrder_once_iff
    (hrun : (putOrderMethod (some uid) order).Run
      (putOrderMethod (some uid) order).start p) (hend : p.inFlight = []) :
    CompletedOnce p ↔ (NetCall.putOrder order).Kept p.log := by
  have hlength := putOrder_called_length hrun hend
  constructor
  · intro h e he userID itemID hop
    obtain ⟨c, hc, -⟩ := h
    rw [hc, List.length_singleton] at hlength
    have hzero : p.log.countP (fun e => !isDocument e.1 && !e.2.ok) = 0 := by
      omega
    have hnot := List.countP_eq_zero.mp hzero e he
    simpa [hop, isDocument] using hnot
  · intro h
    have hzero : p.log.countP (fun e => !isDocument e.1 && !e.2.ok) = 0 := by
      refine List.countP_eq_zero.mpr fun e he hfail => ?_
      rw [Bool.and_eq_true, Bool.not_eq_true', Bool.not_eq_true'] at hfail
      obtain ⟨itemID, hop⟩ := putOrder_delete hrun hend he hfail.1
      rw [h e he uid itemID hop] at hfail
      cases hfail.2
    rw [hzero] at hlength
    obtain ⟨c, hc⟩ := List.length_eq_one_iff.mp hlength
    have hmem : ∀ c', c' ∈ p.called ↔ ∃ e ∈ p.log,
        c' ∈ ((putOrderMethod (some uid) order).answer e.1 e.2).2 := by
      intro c'
      rw [hrun.called]
      exact List.mem_flatMap
    refine ⟨c, hc, fun hsuccess e he => ?_, fun hall => ?_⟩
    · -- a failed write would have been reported, and there is one report
      cases hr : e.2 with
      | success document => rfl
      | failure error =>
          have hfail : Completion.failure error ∈ p.called := by
            refine (hmem _).mpr ⟨e, he, ?_⟩
            rw [hr, putOrder_failure]
            exact List.mem_singleton_self _
          rw [hc, List.mem_singleton] at hfail
          rw [← hfail] at hsuccess
          cases hsuccess
    · obtain ⟨e, he, hmem⟩ := (hmem c).mp (by simp [hc])
      have hok := hall e he
      cases hr : e.2 with
      | failure error =>
          rw [hr] at hok
          cases hok
      | success document =>
          rw [hr, putOrder_success] at hmem
          split at hmem
          · rw [List.mem_singleton] at hmem
            rw [hmem]
            rfl
          · cases hmem

end PutOrder

end NetworkService

/-! ## All methods -/

/-- Once everything is answered, the completion has been called once and
truthfully if and only if the answers are those the method counts on. -/
theorem completed_once_iff {uid : String} {call : NetCall} (hcall : call.Valid)
    {p : Progress NetOp Reply Completion}
    (hrun : (call.method (some uid)).Run (call.method (some uid)).start p)
    (hend : p.inFlight = []) : CompletedOnce p ↔ call.Kept p.log := by
  cases call with
  | signIn | signOut | setPhone | getPersonalInfo | fillPreviousItem =>
      refine iff_of_true ?_ trivial
      exact NetworkService.oneShot_once (fun _ => rfl) hrun hend
  | signUp =>
      exact iff_of_true (NetworkService.signUp_once hrun hend) trivial
  | passwordDrop email =>
      obtain ⟨text, rfl, htext⟩ := hcall
      simp only [NetCall.method, NetworkService.passwordDrop, if_neg htext]
        at hrun
      refine iff_of_true ?_ trivial
      exact NetworkService.oneShot_once (fun _ => rfl) hrun hend
  | addItemInBasket | removeFromBasket =>
      exact NetworkService.callable_once_iff hrun hend
  | putOrder order => exact NetworkService.putOrder_once_iff hrun hend

def cameraCall : NetCall :=
  .putOrder ⟨"", "01.06.2020", 1, "В корзине", [cameraItem]⟩

def refused : NSError := ⟨"FIRFirestoreErrorDomain"⟩

/-- The order's document is refused, after its line has been deleted. -/
theorem completed_once_camera :
    ∃ p, (cameraCall.method (some "ann")).Run
        (cameraCall.method (some "ann")).start p ∧
      p.called = [.failure refused] ∧ CompletedOnce p := by
  have hrun : (cameraCall.method (some "ann")).Run
      (cameraCall.method (some "ann")).start
      ⟨[], [.failure refused],
        [(.write "ann" (.delete "l"), .success none),
          (.write "ann" (.addDocument ⟨[⟨"photo", "cam", 2⟩], "В работе",
            "01.06.2020", 1⟩), .failure refused)]⟩ :=
    .tail (.single (.answer [_] [] _ (Reply.success none) _ _))
      (.answer [] [] _ (Reply.failure refused) _ _)
  have hvalid : cameraCall.Valid := trivial
  refine ⟨_, hrun, rfl, (completed_once_iff hvalid hrun rfl).mpr ?_⟩
  intro e he userID itemID hop
  rcases List.mem_pair.mp he with rfl | rfl
  · rfl
  · cases hop

/-- A removal that is lost in the network has been reported as done, and
nothing more is said. An order whose document and delete both fail reports
twice. -/
theorem completed_once_fails :
    (∃ p, ((NetCall.removeFromBasket "l" "cam" "photo").method (some "ann")).Run
        ((NetCall.removeFromBasket "l" "cam" "photo").method
          (some "ann")).start p ∧ p.inFlight = [] ∧
      p.called = [.message "Товар удален из корзины!"] ∧
      ¬ CompletedOnce p) ∧
    ∃ p, (cameraCall.method (some "ann")).Run
        (cameraCall.method (some "ann")).start p ∧ p.inFlight = [] ∧
      p.called = [.failure refused, .failure refused] ∧
      ¬ CompletedOnce p := by
  constructor
  · refine ⟨_, .single (.answer [] []
      (NetOp.callDeleteItem "l" "photo" "cam")
      (Reply.failure ⟨"NSURLErrorDomain"⟩) _ _), rfl, rfl, fun h => ?_⟩
    obtain ⟨c, hc, hiff⟩ := h
    obtain rfl := List.singleton_inj.mp hc
    exact absurd (hiff.mp rfl _ (List.mem_singleton_self _)) Bool.false_ne_true
  · have hrun : (cameraCall.method (some "ann")).Run
        (cameraCall.method (some "ann")).start
        ⟨[], [.failure refused, .failure refused],
          [(.write "ann" (.addDocument ⟨[⟨"photo", "cam", 2⟩], "В работе",
            "01.06.2020", 1⟩), .failure refused),
            (.write "ann" (.delete "l"), .failure refused)]⟩ :=
      .tail (.single (.answer [] [_] _ (Reply.failure refused) _ _))
        (.answer [] [] _ (Reply.failure refused) _ _)
    refine ⟨_, hrun, rfl, rfl, fun h => ?_⟩
    obtain ⟨c, hc, -⟩ := h
    cases hc

end PhoRent
