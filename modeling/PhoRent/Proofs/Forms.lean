import PhoRent.Proofs.Addresses

/-!
# What the forms send off, and what they leave on the screen

A form sends nothing to the backend that has not been checked. There are three
such checks, and they are not alike: whoever signs in has only filled in both
fields, but a new account and its profile have an address for their email, and
so has every request for a new password.

The loading alert is put up with the one request of a call. On the form for a
new password whatever answer comes takes it away again, and says how it went.
The other two leave it where it is when they succeed.
-/

namespace PhoRent

open Machine SignUpViewController

inductive FormRequest : NetCall → NetOp → Prop
  | signIn {email password : String} (hemail : email ≠ "")
      (hpassword : password ≠ "") :
      FormRequest (.signIn email password) (.signIn email password)
  | createUser {username password : String} (a : Address)
      (hname : username ≠ "") (hsound : Sound password)
      (hsymbol : ∃ c ∈ password.toList, c = 'd' ∨ Symbol c) :
      FormRequest (.signUp username a.text password)
        (.createUser a.text password)
  | setUser {userID username password : String} (a : Address)
      (hname : username ≠ "") (hsound : Sound password)
      (hsymbol : ∃ c ∈ password.toList, c = 'd' ∨ Symbol c) :
      FormRequest (.signUp username a.text password)
        (.setUser userID username a.text)
  | sendPasswordReset (a : Address) :
      FormRequest (.passwordDrop (some a.text)) (.sendPasswordReset a.text)

section Steps

variable {call : NetCall} {op : NetOp}

theorem passwordDrop_text (a : Address) :
    NetworkService.passwordDrop (some a.text) =
      NetworkService.oneShot (.sendPasswordReset a.text) fun _ =>
        .message "access is success" :=
  if_neg a.text_ne_empty

theorem FormRequest.submit {input : FormInput} (h : input.submit = .inr call) :
    ∃ op, (call.method none).ops = [op] ∧ FormRequest call op := by
  cases input with
  | signIn email password =>
      by_cases hfilled : email ≠ "" ∧ password ≠ ""
      · rw [FormInput.submit, LoginViewController.signIn, if_pos hfilled] at h
        obtain rfl := Sum.inr.inj h
        exact ⟨_, rfl, .signIn hfilled.1 hfilled.2⟩
      · rw [FormInput.submit, LoginViewController.signIn, if_neg hfilled] at h
        cases h
  | signUp username email password =>
      by_cases hvalid : validation email password = true
      · rw [FormInput.submit, signUp_of_validation hvalid] at h
        by_cases hname : username = ""
        · rw [if_pos hname] at h
          cases h
        · rw [if_neg hname] at h
          obtain rfl := Sum.inr.inj h
          obtain ⟨hemail, hpassword⟩ := Bool.and_eq_true_iff.mp hvalid
          obtain ⟨a, rfl⟩ := isValidEmail_iff.mp hemail
          obtain ⟨hsound, hsymbol⟩ := isValidPassword_iff.mp hpassword
          exact ⟨_, rfl, .createUser a hname hsound hsymbol⟩
      · rw [FormInput.submit, SignUpViewController.signUp, if_neg hvalid] at h
        cases h
  | passwordDrop text =>
      rw [FormInput.submit] at h
      cases hdrop : PasswordDropViewController.dropPassword text with
      | showWrongFormat =>
          rw [hdrop] at h
          cases h
      | passwordDrop email =>
          rw [hdrop] at h
          obtain rfl := Sum.inr.inj h
          obtain ⟨a, rfl⟩ :=
            PasswordDropViewController.exists_of_passwordDrop hdrop
          refine ⟨.sendPasswordReset a.text, ?_, .sendPasswordReset a⟩
          rw [NetCall.method, passwordDrop_text]
          rfl

/-- The callback of a request sends off at most one other. -/
theorem FormRequest.answer (h : FormRequest call op) (reply : Reply)
    (currentUser : Option String) :
    ∀ op' ∈ ((call.method currentUser).answer op reply).1,
      FormRequest call op' := by
  cases h with
  | createUser a hname hsound hsymbol =>
      cases reply with
      | failure error => exact fun _ h => absurd h List.not_mem_nil
      | success document =>
          cases currentUser with
          | none => exact fun _ h => absurd h List.not_mem_nil
          | some userID =>
              intro op' hop'
              obtain rfl := List.mem_singleton.mp hop'
              exact .setUser a hname hsound hsymbol
  | sendPasswordReset a =>
      rw [NetCall.method, passwordDrop_text]
      cases reply <;> exact fun _ h => absurd h List.not_mem_nil
  | signIn _ _ | setUser _ _ _ _ =>
      cases reply <;> exact fun _ h => absurd h List.not_mem_nil

/-- The form for a new password. -/
def NetCall.drops : NetCall → Bool
  | .passwordDrop _ => true
  | _ => false

/-- A form for a new password is submitted, or something is answered. -/
def FormEvent.drops : FormEvent → Bool
  | .submitted (.passwordDrop _) _ | .answered _ _ _ => true
  | .submitted _ _ => false

/-- What an answer shows: the loading alert is closed, with a word on why. -/
def Ending (shown : List FormAlert) : Prop :=
  shown = [.closeAlertLoading, .showAuthError] ∨
    shown = [.closeAlertLoading, .showErrorAlert]

/-- An answer ends the call, or it is one that shows nothing: a success on a
form that leaves its loading alert, or the way to the next request. -/
theorem FormRequest.alerts (h : FormRequest call op) (reply : Reply)
    (currentUser : Option String) :
    let step := (call.method currentUser).answer op reply
    let shown := step.2.flatMap call.alerts
    (step.1 = [] ∧ Ending shown) ∨
      (step.1.length ≤ 1 ∧ shown = [] ∧ call.drops = false) := by
  cases h with
  | createUser a _ _ _ =>
      cases reply with
      | success document =>
          cases currentUser with
          | none => exact .inr ⟨Nat.zero_le 1, rfl, rfl⟩
          | some userID => exact .inr ⟨Nat.le_refl 1, rfl, rfl⟩
      | failure error => exact .inl ⟨rfl, .inl rfl⟩
  | sendPasswordReset a =>
      rw [NetCall.method, passwordDrop_text]
      cases reply with
      | success document => exact .inl ⟨rfl, .inl rfl⟩
      | failure error => exact .inl ⟨rfl, .inr rfl⟩
  | signIn _ _ | setUser _ _ _ _ =>
      cases reply with
      | success document => exact .inr ⟨Nat.zero_le 1, rfl, rfl⟩
      | failure error => exact .inl ⟨rfl, .inl rfl⟩

/-- The alerts a view shows by itself are about its fields. -/
theorem FormInput.submit_alert {input : FormInput} {alert : FormAlert}
    (h : input.submit = .inl alert) :
    alert ∈ [.showAlert, .validationError, .showWrongFormat] := by
  cases input with
  | signIn email password =>
      rw [FormInput.submit] at h
      split at h <;> cases h
      decide
  | signUp username email password =>
      rw [FormInput.submit] at h
      split at h <;> cases h <;> decide
  | passwordDrop text =>
      rw [FormInput.submit] at h
      split at h <;> cases h
      decide

end Steps

namespace FormScreen

theorem formed_step (s : FormScreen) (e : FormEvent) (s' : FormScreen)
    (h : ∀ p ∈ s.inFlight, FormRequest p.1 p.2)
    (he : s.handle e = some s') : ∀ p ∈ s'.inFlight, FormRequest p.1 p.2 := by
  cases e with
  | submitted input isConnectedToNetwork =>
      rw [handle] at he
      cases hsubmit : input.submit with
      | inl alert =>
          rw [hsubmit] at he
          obtain rfl := Option.some.inj he
          exact h
      | inr call =>
          rw [hsubmit] at he
          obtain rfl := Option.some.inj he
          obtain ⟨op, hops, hop⟩ := FormRequest.submit hsubmit
          cases isConnectedToNetwork with
          | false => exact h
          | true =>
              rw [present, if_pos rfl, hops]
              intro p hp
              rcases List.mem_append.mp hp with hp | hp
              · exact h p hp
              · obtain rfl := List.mem_singleton.mp hp
                exact hop
  | answered k reply currentUser =>
      obtain ⟨⟨call, op⟩, hk, rfl⟩ := Option.map_eq_some_iff.mp he
      have hop : FormRequest call op := h _ (List.mem_of_getElem? hk)
      intro p hp
      rcases List.mem_append.mp hp with hp | hp
      · exact h p (List.mem_of_mem_eraseIdx hp)
      · obtain ⟨op', hop', rfl⟩ := List.mem_map.mp hp
        exact hop.answer reply currentUser op' hop'

/-- Whatever is typed into the forms and submitted, and however the backend
answers, every request it gets has gone through the check of its form: both
fields filled in to sign in, and otherwise an address, a name that is not empty
and a password of the right length and letters. -/
theorem formed_of_run {s : FormScreen}
    (h : Run handle (fun _ _ => True) start s) :
    ∀ p ∈ s.inFlight, FormRequest p.1 p.2 :=
  h.invariant (fun s e s' hI _ he => formed_step s e s' hI he)
    fun _ hp => absurd hp List.not_mem_nil

/-- An account is made, and its profile is on the way. -/
theorem formed_of_run_anna :
    ∃ s, Run handle (fun _ _ => True) start s ∧
      s.inFlight.map Prod.snd = [.setUser "u1" "Anna" "anna@mail.ru"] ∧
      ∀ p ∈ s.inFlight, FormRequest p.1 p.2 := by
  have hplay : ∃ s, Run handle (fun _ _ => True) start s ∧
      s.inFlight.map Prod.snd = [.setUser "u1" "Anna" "anna@mail.ru"] :=
    exists_run_of_play
      [.submitted (.signUp "Anna" "anna@mail.ru" "Abcdef1$") true,
        .answered 0 (.success none) (some "u1")]
      (by decide +kernel)
  obtain ⟨s, hrun, hops⟩ := hplay
  exact ⟨s, hrun, hops, formed_of_run hrun⟩

/-! ## The loading alert -/

def times (s : FormScreen) (alert : FormAlert) : ℕ := s.shown.count alert

/-- What a step changes, `left` of it being loading alerts that nothing takes
away. -/
structure Shows (s s' : FormScreen) (left : ℕ) : Prop where
  told : s'.times .showAuthError + s'.times .showErrorAlert +
      s.times .closeAlertLoading =
    s.times .showAuthError + s.times .showErrorAlert +
      s'.times .closeAlertLoading
  loading : s'.times .showAlertLoading + s.times .closeAlertLoading +
      s.inFlight.length =
    s.times .showAlertLoading + s'.times .closeAlertLoading +
      s'.inFlight.length + left

theorem shows_append (s : FormScreen) {inFlight : List (NetCall × NetOp)}
    {shown : List FormAlert} {left : ℕ} (opened closed : ℕ)
    (hopened : shown.count .showAlertLoading = opened)
    (hclosed : shown.count .closeAlertLoading = closed)
    (htold : shown.count .showAuthError + shown.count .showErrorAlert = closed)
    (hloading : opened + s.inFlight.length =
      closed + inFlight.length + left) :
    Shows s ⟨inFlight, s.shown ++ shown⟩ left := by
  constructor
  · simp only [times, List.count_append]
    omega
  · simp only [times, List.count_append]
    omega

theorem shows_submitted {s s' : FormScreen} {input : FormInput}
    {isConnectedToNetwork : Bool}
    (he : s.handle (.submitted input isConnectedToNetwork) = some s') :
    Shows s s' 0 := by
  rw [handle] at he
  cases hsubmit : input.submit with
  | inl alert =>
      rw [hsubmit] at he
      obtain rfl := Option.some.inj he
      have halert := FormInput.submit_alert hsubmit
      simp only [List.mem_cons, List.not_mem_nil, or_false] at halert
      rcases halert with rfl | rfl | rfl <;>
        exact shows_append s 0 0 rfl rfl rfl rfl
  | inr call =>
      rw [hsubmit] at he
      obtain rfl := Option.some.inj he
      obtain ⟨op, hops, -⟩ := FormRequest.submit hsubmit
      rw [present, hops]
      cases isConnectedToNetwork with
      | false => exact shows_append s 0 0 rfl rfl rfl rfl
      | true =>
          refine shows_append s 1 0 rfl rfl rfl ?_
          rw [List.length_append, List.length_map, List.length_singleton]
          omega

/-- A request answered is one less, unless its callback sends another. -/
theorem shows_answered {s s' : FormScreen} {k : ℕ} {reply : Reply}
    {currentUser : Option String}
    (h : ∀ p ∈ s.inFlight, FormRequest p.1 p.2)
    (he : s.handle (.answered k reply currentUser) = some s') :
    ∃ left, Shows s s' left ∧
      ((∀ p ∈ s.inFlight, p.1.drops = true) → left = 0) := by
  obtain ⟨⟨call, op⟩, hk, rfl⟩ := Option.map_eq_some_iff.mp he
  have hmem := List.mem_of_getElem? hk
  have hpos := List.length_pos_of_mem hmem
  have hlength := List.length_eraseIdx_of_lt
    (List.getElem?_eq_some_iff.mp hk).1
  have halerts := (h _ hmem).alerts reply currentUser
  generalize hstep : (call.method currentUser).answer op reply = step at halerts
  obtain ⟨ops, outs⟩ := step
  simp only [hstep]
  rcases halerts with ⟨rfl, hending⟩ | ⟨hops, hshown, hdrops⟩
  · refine ⟨0, ?_, fun _ => rfl⟩
    have hcount : 0 + s.inFlight.length = 1 + (s.inFlight.eraseIdx k ++
        ([] : List NetOp).map fun op => (call, op)).length + 0 := by
      rw [List.map_nil, List.append_nil, hlength]
      omega
    rcases hending with hshown | hshown
    · rw [hshown]
      exact shows_append s 0 1 rfl rfl rfl hcount
    · rw [hshown]
      exact shows_append s 0 1 rfl rfl rfl hcount
  · refine ⟨1 - ops.length, ?_, fun hall => ?_⟩
    · have hops : ops.length ≤ 1 := hops
      rw [hshown]
      refine shows_append s 0 0 rfl rfl rfl ?_
      rw [List.length_append, List.length_map, hlength]
      omega
    · have hcall := hall _ hmem
      rw [hdrops] at hcall
      cases hcall

theorem shows_step {s s' : FormScreen} {e : FormEvent}
    (h : ∀ p ∈ s.inFlight, FormRequest p.1 p.2) (he : s.handle e = some s') :
    ∃ left, Shows s s' left ∧
      ((∀ p ∈ s.inFlight, p.1.drops = true) → left = 0) := by
  cases e with
  | submitted input isConnectedToNetwork =>
      exact ⟨0, shows_submitted he, fun _ => rfl⟩
  | answered k reply currentUser => exact shows_answered h he

/-- No more loading alerts are taken away, or can be, than have been shown. -/
structure Told (s : FormScreen) : Prop where
  formed : ∀ p ∈ s.inFlight, FormRequest p.1 p.2
  told : s.times .showAuthError + s.times .showErrorAlert =
    s.times .closeAlertLoading
  loading : s.times .closeAlertLoading + s.inFlight.length ≤
    s.times .showAlertLoading

theorem told_start : Told start where
  formed _ hp := absurd hp List.not_mem_nil
  told := rfl
  loading := Nat.le_refl 0

theorem Told.step {s s' : FormScreen} {e : FormEvent} (h : Told s)
    (he : s.handle e = some s') : Told s' := by
  obtain ⟨left, hshows, -⟩ := shows_step h.formed he
  have htold := h.told
  have hloading := h.loading
  have htold' := hshows.told
  have hloading' := hshows.loading
  exact ⟨formed_step s e s' h.formed he, by omega, by omega⟩

/-- On the form for a new password all of them are. -/
structure Closing (s : FormScreen) : Prop extends Told s where
  drops : ∀ p ∈ s.inFlight, p.1.drops = true
  closed : s.times .closeAlertLoading + s.inFlight.length =
    s.times .showAlertLoading

theorem drops_step {s s' : FormScreen} {e : FormEvent}
    (h : ∀ p ∈ s.inFlight, p.1.drops = true) (hok : e.drops = true)
    (he : s.handle e = some s') : ∀ p ∈ s'.inFlight, p.1.drops = true := by
  cases e with
  | submitted input isConnectedToNetwork =>
      cases input with
      | signIn _ _ | signUp _ _ _ => cases hok
      | passwordDrop text =>
          simp only [handle, FormInput.submit] at he
          cases hdrop : PasswordDropViewController.dropPassword text with
          | showWrongFormat =>
              rw [hdrop] at he
              obtain rfl := Option.some.inj he
              exact h
          | passwordDrop email =>
              rw [hdrop] at he
              obtain rfl := Option.some.inj he
              cases isConnectedToNetwork with
              | false => exact h
              | true =>
                  intro p hp
                  rcases List.mem_append.mp hp with hp | hp
                  · exact h p hp
                  · obtain ⟨op, -, rfl⟩ := List.mem_map.mp hp
                    rfl
  | answered k reply currentUser =>
      obtain ⟨⟨call, op⟩, hk, rfl⟩ := Option.map_eq_some_iff.mp he
      have hcall := h _ (List.mem_of_getElem? hk)
      intro p hp
      rcases List.mem_append.mp hp with hp | hp
      · exact h p (List.mem_of_mem_eraseIdx hp)
      · obtain ⟨op', -, rfl⟩ := List.mem_map.mp hp
        exact hcall

theorem Closing.step {s s' : FormScreen} {e : FormEvent} (h : Closing s)
    (hok : e.drops = true) (he : s.handle e = some s') : Closing s' := by
  obtain ⟨left, hshows, hleft⟩ := shows_step h.formed he
  have hclosed := h.closed
  have hloading := hshows.loading
  have hnone := hleft h.drops
  exact ⟨h.toTold.step he, drops_step h.drops hok he, by omega⟩

/-- On all three forms a loading alert that is taken away is followed by
exactly one word on how it went, and none is taken away that was not shown. On
the form for a new password, each is taken away by the answer to its request:
when all are in, none is left. -/
theorem alerts_of_run :
    (∀ s, Run handle (fun _ _ => True) start s →
      s.times .showAuthError + s.times .showErrorAlert =
          s.times .closeAlertLoading ∧
        s.times .closeAlertLoading + s.inFlight.length ≤
          s.times .showAlertLoading) ∧
    ∀ s, Run handle (fun _ e => e.drops = true) start s →
      s.times .closeAlertLoading + s.inFlight.length =
        s.times .showAlertLoading := by
  constructor
  · intro s h
    have htold : Told s :=
      h.invariant (fun _ _ _ hI _ he => Told.step hI he) told_start
    exact ⟨htold.told, htold.loading⟩
  · intro s h
    have hclosing : Closing s :=
      h.invariant (fun _ _ _ hI hok he => Closing.step hI hok he)
        ⟨told_start, fun _ hp => absurd hp List.not_mem_nil, rfl⟩
    exact hclosing.closed

/-- Two requests for one address, answered the other way around. -/
theorem alerts_of_run_twice :
    ∃ s, Run handle (fun _ e => e.drops = true) start s ∧
      s.shown = [.showAlertLoading, .showAlertLoading, .closeAlertLoading,
        .showErrorAlert, .closeAlertLoading, .showAuthError] ∧
      s.times .closeAlertLoading + s.inFlight.length =
        s.times .showAlertLoading := by
  have hplay : ∃ s, Run handle (fun _ e => e.drops = true) start s ∧
      s.shown = [.showAlertLoading, .showAlertLoading, .closeAlertLoading,
        .showErrorAlert, .closeAlertLoading, .showAuthError] :=
    exists_run_of_play
      [.submitted (.passwordDrop (some " anna@mail.ru")) true,
        .submitted (.passwordDrop (some "anna@mail.ru")) true,
        .answered 1 (.failure ⟨"FIRAuthErrorDomain"⟩) none,
        .answered 0 (.success none) none]
      (by decide +kernel)
  obtain ⟨s, hrun, hshown⟩ := hplay
  exact ⟨s, hrun, hshown, alerts_of_run.2 s hrun⟩

end FormScreen

end PhoRent
