import PhoRent.App.Accounts

/-!
# An account is left without a profile where the second step goes wrong

A call of `signUp` makes at most one account, and the profile is written to the
place of whoever is signed in when the callback of the first step runs. If that
is still the account the call has made, and the write does not fail, then the
call ends with account and profile both there. If the first step fails it ends
with neither, and the same email can be tried again.

The invariant goes call by call: how far a call is says what there is of its
account. A step touches one call and what that call has made, so for the others
it is enough that theirs is left alone.
-/

namespace PhoRent

open Machine

namespace Accounts

/-- The write of a profile does not fail, and when the callback of a creation
runs, the account created is the one signed in. -/
def proper (s : Accounts) : AccountEvent → Bool
  | .fail k _ => !(s.calls[k]?).any fun call => call.stage.writing
  | .callback k =>
      !((s.calls[k]?).any fun call => call.stage.created) ||
        s.accounts.any fun a => a.madeBy == k && s.currentUser == some a.uid
  | _ => true

def Settled (s : Accounts) : Prop :=
  ∀ call ∈ s.calls, call.stage.isOver = true

/-- No account is left of a call that has reported a failure, and every account
has the profile its call was made with. -/
structure Profiled (s : Accounts) : Prop where
  failed : ∀ (k : ℕ) (call : SignUpCall), s.calls[k]? = some call →
    (∃ error, .failure error ∈ call.called) →
    ∀ a ∈ s.accounts, a.madeBy ≠ k
  accounts : ∀ a ∈ s.accounts, ∃ call, s.calls[a.madeBy]? = some call ∧
    s.users.get a.uid = some ⟨call.username, a.email, a.uid⟩

def Made (s : Accounts) (k : ℕ) (email : String) (a : Account) : Prop :=
  a ∈ s.accounts ∧ a.madeBy = k ∧ a.email = email

def NoneMade (s : Accounts) (k : ℕ) : Prop := ∀ a ∈ s.accounts, a.madeBy ≠ k

/-- How far a call is, and what there is of its account. -/
inductive CallKept (s : Accounts) (k : ℕ) : SignUpCall → Prop
  | creating {username email password : String} (hnone : NoneMade s k) :
      CallKept s k ⟨username, email, password,
        .sent (.createUser email password), []⟩
  | refused {username email password : String} {error : NSError}
      (hnone : NoneMade s k) :
      CallKept s k ⟨username, email, password,
        .answered (.createUser email password) (.failure error), []⟩
  | created {username email password : String} {a : Account}
      (ha : Made s k email a) :
      CallKept s k ⟨username, email, password,
        .answered (.createUser email password) (.success none), []⟩
  | writing {username email password : String} {a : Account}
      (ha : Made s k email a) :
      CallKept s k ⟨username, email, password,
        .sent (.setUser a.uid username email), []⟩
  | written {username email password : String} {a : Account}
      (ha : Made s k email a)
      (hprofile : s.users.get a.uid = some ⟨username, email, a.uid⟩) :
      CallKept s k ⟨username, email, password,
        .answered (.setUser a.uid username email) (.success none), []⟩
  | failed {username email password : String} {error : NSError}
      (hnone : NoneMade s k) :
      CallKept s k ⟨username, email, password, .over, [.failure error]⟩
  | finished {username email password : String} {a : Account}
      (ha : Made s k email a)
      (hprofile : s.users.get a.uid = some ⟨username, email, a.uid⟩) :
      CallKept s k ⟨username, email, password, .over,
        [.message "access is success"]⟩

structure Kept (s : Accounts) : Prop where
  made : ∀ a ∈ s.accounts, a.madeBy < s.calls.length
  uids : ∀ a ∈ s.accounts, ∀ b ∈ s.accounts, a.uid = b.uid → a = b
  owners : ∀ a ∈ s.accounts, ∀ b ∈ s.accounts, a.madeBy = b.madeBy → a = b
  calls : ∀ (k : ℕ) (call : SignUpCall), s.calls[k]? = some call →
    CallKept s k call

/-- What a step leaves alone: the account call `k` has made, or that it has
made none, and the profile of it. -/
structure Intact (s s' : Accounts) (k : ℕ) : Prop where
  accounts : ∀ a, a.madeBy = k → (a ∈ s'.accounts ↔ a ∈ s.accounts)
  users : ∀ a ∈ s.accounts, a.madeBy = k →
    s'.users.get a.uid = s.users.get a.uid

section Steps

variable {s s' : Accounts} {k : ℕ}

theorem Intact.noneMade (h : Intact s s' k) (hnone : NoneMade s k) :
    NoneMade s' k := by
  intro a ha hk
  exact hnone a ((h.accounts a hk).mp ha) hk

theorem Intact.made (h : Intact s s' k) {email : String} {a : Account}
    (ha : Made s k email a) : Made s' k email a :=
  ⟨(h.accounts a ha.2.1).mpr ha.1, ha.2⟩

theorem Intact.profile (h : Intact s s' k) {email : String} {a : Account}
    {profile : Profile} (ha : Made s k email a)
    (hprofile : s.users.get a.uid = some profile) :
    s'.users.get a.uid = some profile :=
  (h.users a ha.1 ha.2.1).trans hprofile

theorem CallKept.intact {call : SignUpCall} (hc : CallKept s k call)
    (h : Intact s s' k) : CallKept s' k call := by
  cases hc with
  | creating hnone => exact .creating (h.noneMade hnone)
  | refused hnone => exact .refused (h.noneMade hnone)
  | created ha => exact .created (h.made ha)
  | writing ha => exact .writing (h.made ha)
  | written ha hprofile => exact .written (h.made ha) (h.profile ha hprofile)
  | failed hnone => exact .failed (h.noneMade hnone)
  | finished ha hprofile =>
      exact .finished (h.made ha) (h.profile ha hprofile)

theorem Intact.of_eq (haccounts : s'.accounts = s.accounts)
    (husers : s'.users = s.users) : Intact s s' k where
  accounts _ _ := by rw [haccounts]
  users _ _ _ := by rw [husers]

theorem Kept.setCall {t : Accounts} (h : Kept s) {call call' : SignUpCall}
    (hk : s.calls[k]? = some call) (hcalls : t.calls = s.calls)
    (hmade : ∀ a ∈ t.accounts, a.madeBy < t.calls.length)
    (huids : ∀ a ∈ t.accounts, ∀ b ∈ t.accounts, a.uid = b.uid → a = b)
    (howners : ∀ a ∈ t.accounts, ∀ b ∈ t.accounts,
      a.madeBy = b.madeBy → a = b)
    (hothers : ∀ j, j ≠ k → Intact s t j) (hcall : CallKept t k call') :
    Kept (t.setCall k call') where
  made a ha := by
    rw [Accounts.setCall, List.length_set]
    exact hmade a ha
  uids := huids
  owners := howners
  calls j c hj := by
    have hsame : Intact t (t.setCall k call') j := .of_eq rfl rfl
    have hlt := (List.getElem?_eq_some_iff.mp hk).1
    rw [Accounts.setCall, List.getElem?_set, hcalls] at hj
    by_cases hjk : k = j
    · subst hjk
      rw [if_pos rfl, if_pos hlt] at hj
      obtain rfl := Option.some.inj hj
      exact hcall.intact hsame
    · rw [if_neg hjk] at hj
      exact ((h.calls j c hj).intact (hothers j (Ne.symm hjk))).intact hsame

theorem Kept.setCall_self (h : Kept s) {call call' : SignUpCall}
    (hk : s.calls[k]? = some call) (hcall : CallKept s k call') :
    Kept (s.setCall k call') :=
  h.setCall hk rfl h.made h.uids h.owners (fun _ _ => .of_eq rfl rfl) hcall

theorem Kept.signUp (h : Kept s) (username email password : String) :
    Kept { s with calls := s.calls ++ [.start username email password] } where
  made a ha := by
    rw [List.length_append]
    exact Nat.lt_add_right _ (h.made a ha)
  uids := h.uids
  owners := h.owners
  calls j c hj := by
    have hsame : Intact s
        { s with calls := s.calls ++ [.start username email password] } j :=
      .of_eq rfl rfl
    rw [List.getElem?_append] at hj
    split at hj
    · exact (h.calls j c hj).intact hsame
    · next hlt =>
        -- the new call is the last, and no account can be its own yet
        rw [List.getElem?_singleton] at hj
        split at hj
        · next hlast =>
            obtain rfl := Option.some.inj hj
            refine .creating fun a ha hmade => ?_
            have hbound := h.made a ha
            omega
        · cases hj

theorem Kept.create (h : Kept s) {uid username email password : String}
    (hk : s.calls[k]? = some ⟨username, email, password,
      .sent (.createUser email password), []⟩)
    (hnone : NoneMade s k) (hfresh : ∀ a ∈ s.accounts, a.uid ≠ uid) :
    Kept (({ s with
      accounts := s.accounts ++ [⟨uid, email, k⟩]
      currentUser := some uid } : Accounts).setCall k
        ⟨username, email, password,
          .answered (.createUser email password) (.success none), []⟩) := by
  have hlt := (List.getElem?_eq_some_iff.mp hk).1
  have hmem {a : Account} : a ∈ s.accounts ++ [⟨uid, email, k⟩] ↔
      a ∈ s.accounts ∨ a = ⟨uid, email, k⟩ := by
    rw [List.mem_append, List.mem_singleton]
  refine h.setCall hk rfl ?_ ?_ ?_ ?_ ?_
  · intro a ha
    rcases hmem.mp ha with ha | rfl
    · exact h.made a ha
    · exact hlt
  · intro a ha b hb hab
    rcases hmem.mp ha with ha | rfl <;> rcases hmem.mp hb with hb | rfl
    · exact h.uids a ha b hb hab
    · exact absurd hab (hfresh a ha)
    · exact absurd hab.symm (hfresh b hb)
    · rfl
  · intro a ha b hb hab
    rcases hmem.mp ha with ha | rfl <;> rcases hmem.mp hb with hb | rfl
    · exact h.owners a ha b hb hab
    · exact absurd hab (hnone a ha)
    · exact absurd hab.symm (hnone b hb)
    · rfl
  · intro j hj
    refine ⟨fun a ha => ?_, fun _ _ _ => rfl⟩
    rw [hmem, or_iff_left]
    rintro rfl
    exact hj ha.symm
  · exact .created ⟨hmem.mpr (.inr rfl), rfl, rfl⟩

/-- Firestore writes the profile of the account a call has made. Others have
other uids. -/
theorem Kept.write (h : Kept s) {username email password : String}
    {a : Account} (ha : Made s k email a)
    (hk : s.calls[k]? = some ⟨username, email, password,
      .sent (.setUser a.uid username email), []⟩) :
    Kept (({ s with
      users := s.users.put a.uid ⟨username, email, a.uid⟩ } : Accounts).setCall
        k ⟨username, email, password,
          .answered (.setUser a.uid username email) (.success none), []⟩) := by
  refine h.setCall hk rfl h.made h.uids h.owners (fun j hj => ?_) ?_
  · refine ⟨fun _ _ => Iff.rfl, fun b hb hbj => ?_⟩
    have hne : b.uid ≠ a.uid := by
      intro huid
      obtain rfl := h.uids b hb a ha.1 huid
      exact hj (hbj.symm.trans ha.2.1)
    simp only [Keyed.Coll.get_put, if_neg hne]
  · exact .written ha (Keyed.Coll.get_put_self _ _ _)

theorem Kept.succeed (h : Kept s) {uid : String}
    (he : s.handle (.succeed k uid) = some s') : Kept s' := by
  obtain ⟨call, hk, he⟩ := Option.bind_eq_some_iff.mp he
  obtain ⟨op, hop, he⟩ := Option.bind_eq_some_iff.mp he
  obtain ⟨t, ht, rfl⟩ := Option.map_eq_some_iff.mp he
  cases h.calls k call hk with
  | creating hnone =>
      obtain rfl := Option.some.inj hop
      rw [perform] at ht
      split at ht
      · cases ht
      · next hfree =>
          obtain rfl := Option.some.inj ht
          refine h.create hk hnone fun a ha huid => hfree ?_
          exact List.any_eq_true.mpr ⟨a, ha, by simp [huid]⟩
  | writing ha =>
      obtain rfl := Option.some.inj hop
      obtain rfl := Option.some.inj ht
      exact h.write ha hk
  | refused _ | created _ | written _ _ | failed _ | finished _ _ => cases hop

theorem Kept.fail (h : Kept s) {error : NSError}
    (hok : s.proper (.fail k error) = true)
    (he : s.handle (.fail k error) = some s') : Kept s' := by
  obtain ⟨call, hk, he⟩ := Option.bind_eq_some_iff.mp he
  obtain ⟨op, hop, rfl⟩ := Option.map_eq_some_iff.mp he
  cases h.calls k call hk with
  | creating hnone =>
      obtain rfl := Option.some.inj hop
      exact h.setCall_self hk (.refused hnone)
  | writing ha =>
      rw [proper, hk] at hok
      cases hok
  | refused _ | created _ | written _ _ | failed _ | finished _ _ => cases hop

theorem Kept.callback (h : Kept s) (hok : s.proper (.callback k) = true)
    (he : s.handle (.callback k) = some s') : Kept s' := by
  obtain ⟨call, hk, he⟩ := Option.bind_eq_some_iff.mp he
  obtain ⟨call', hcall, rfl⟩ := Option.map_eq_some_iff.mp he
  cases h.calls k call hk with
  | refused hnone =>
      obtain rfl := Option.some.inj hcall
      exact h.setCall_self hk (.failed hnone)
  | created ha =>
      rw [proper, hk] at hok
      simp only [Option.any_some, SignUpStage.created, Bool.not_true,
        Bool.false_or, List.any_eq_true, Bool.and_eq_true, beq_iff_eq] at hok
      obtain ⟨b, hb, hmade, huser⟩ := hok
      obtain rfl := h.owners b hb _ ha.1 (hmade.trans ha.2.1.symm)
      rw [huser] at hcall
      obtain rfl := Option.some.inj hcall
      exact h.setCall_self hk (.writing ha)
  | written ha hprofile =>
      obtain rfl := Option.some.inj hcall
      exact h.setCall_self hk (.finished ha hprofile)
  | creating _ | writing _ | failed _ | finished _ _ => cases hcall

theorem kept_step (s : Accounts) (e : AccountEvent) (s' : Accounts)
    (h : Kept s) (hok : s.proper e = true) (he : s.handle e = some s') :
    Kept s' := by
  cases e with
  | signUp username email password =>
      obtain rfl := Option.some.inj he
      exact h.signUp username email password
  | succeed k uid => exact h.succeed he
  | fail k error => exact h.fail hok he
  | callback k => exact h.callback hok he
  | session user =>
      obtain rfl := Option.some.inj he
      exact ⟨h.made, h.uids, h.owners,
        fun k call hk => (h.calls k call hk).intact (.of_eq rfl rfl)⟩

theorem kept_fresh : Kept fresh where
  made _ ha := absurd ha List.not_mem_nil
  uids _ ha := absurd ha List.not_mem_nil
  owners _ ha := absurd ha List.not_mem_nil
  calls _ _ hk := absurd hk (by simp [fresh])

/-- A call that has ended has its account and its profile, or has reported a
failure and has no account. -/
theorem Kept.profiled (h : Kept s) (hsettled : Settled s) : Profiled s where
  failed k call hk herror := by
    obtain ⟨error, hmem⟩ := herror
    have hover := hsettled call (List.mem_of_getElem? hk)
    cases h.calls k call hk with
    | failed hnone => exact hnone
    | finished _ _ => simp at hmem
    | creating _ | refused _ | created _ | writing _ | written _ _ =>
        cases hover
  accounts a ha := by
    obtain ⟨call, hk⟩ : ∃ call, s.calls[a.madeBy]? = some call :=
      ⟨_, List.getElem?_eq_getElem (h.made a ha)⟩
    refine ⟨call, hk, ?_⟩
    have hover := hsettled call (List.mem_of_getElem? hk)
    cases h.calls _ call hk with
    | failed hnone => exact absurd rfl (hnone a ha)
    | finished hb hprofile =>
        obtain rfl := h.owners _ hb.1 a ha hb.2.1
        rw [hprofile, hb.2.2]
    | creating _ | refused _ | created _ | writing _ | written _ _ =>
        cases hover

end Steps

/-- In every run in which no write of a profile fails, and in which a callback
finds the account its call has created signed in, whatever else fails: when all
answers are in, every account has its profile, and no failure has left one. -/
theorem profiled_of_run {s : Accounts}
    (h : Run handle (fun s e => s.proper e = true) .fresh s)
    (hsettled : s.Settled) : s.Profiled :=
  (h.invariant kept_step kept_fresh).profiled hsettled

instance (s : Accounts) : Decidable s.Settled :=
  inferInstanceAs (Decidable (∀ call ∈ s.calls, call.stage.isOver = true))

def authError : NSError := ⟨"FIRAuthErrorDomain"⟩

def denied : NSError := ⟨"FIRFirestoreErrorDomain"⟩

/-- A first attempt without a network, and a second that succeeds. -/
theorem profiled_of_run_anna :
    ∃ s, Run handle (fun s e => s.proper e = true) .fresh s ∧ s.Settled ∧
      s.accounts = [⟨"u1", "anna@mail.ru", 1⟩] ∧ s.Profiled := by
  have hplay : ∃ s, Run handle (fun s e => s.proper e = true) .fresh s ∧
      s.Settled ∧ s.accounts = [⟨"u1", "anna@mail.ru", 1⟩] :=
    exists_run_of_play
      [.signUp "Anna" "anna@mail.ru" "Abcdef1$", .fail 0 authError, .callback 0,
        .signUp "Anna" "anna@mail.ru" "Abcdef1$", .succeed 1 "u1", .callback 1,
        .succeed 1 "", .callback 1]
      (by decide +kernel)
  obtain ⟨s, hrun, hsettled, haccounts⟩ := hplay
  exact ⟨s, hrun, hsettled, haccounts, profiled_of_run hrun hsettled⟩

theorem not_profiled_of_none {s : Accounts} {a : Account}
    (ha : a ∈ s.accounts) (hnone : s.users.get a.uid = none) :
    ¬ s.Profiled := by
  intro h
  obtain ⟨call, -, hprofile⟩ := h.accounts a ha
  rw [hnone] at hprofile
  cases hprofile

/-- The profile is refused, and the second attempt by Auth: the account stays
without one. Two calls at once, and the first callback finds the account of the
second signed in: both are told they have succeeded. -/
theorem profiled_fails :
    (∃ s, Run handle (fun _ _ => True) .fresh s ∧ s.Settled ∧
      s.calls.map SignUpCall.called =
        [[.failure denied], [.failure authError]] ∧ ¬ s.Profiled) ∧
    ∃ s, Run handle (fun _ _ => True) .fresh s ∧ s.Settled ∧
      s.calls.map SignUpCall.called =
        [[.message "access is success"], [.message "access is success"]] ∧
      ¬ s.Profiled := by
  have hrefused : ∃ s, Run handle (fun _ _ => True) .fresh s ∧ s.Settled ∧
      s.calls.map SignUpCall.called =
        [[.failure denied], [.failure authError]] ∧
      ⟨"u1", "anna@mail.ru", 0⟩ ∈ s.accounts ∧ s.users.get "u1" = none :=
    exists_run_of_play
      [.signUp "Anna" "anna@mail.ru" "Abcdef1$", .succeed 0 "u1", .callback 0,
        .fail 0 denied, .callback 0,
        .signUp "Anna" "anna@mail.ru" "Abcdef1$", .fail 1 authError, .callback 1]
      (by decide +kernel)
  have hcrossed : ∃ s, Run handle (fun _ _ => True) .fresh s ∧ s.Settled ∧
      s.calls.map SignUpCall.called =
        [[.message "access is success"], [.message "access is success"]] ∧
      ⟨"u1", "anna@mail.ru", 0⟩ ∈ s.accounts ∧ s.users.get "u1" = none :=
    exists_run_of_play
      [.signUp "Anna" "anna@mail.ru" "Abcdef1$",
        .signUp "Boris" "boris@mail.ru" "Abcdef1$", .succeed 0 "u1",
        .succeed 1 "u2", .callback 0, .callback 1, .succeed 0 "", .succeed 1 "",
        .callback 0, .callback 1]
      (by decide +kernel)
  obtain ⟨s, hrun, hsettled, hcalled, ha, hnone⟩ := hrefused
  obtain ⟨s', hrun', hsettled', hcalled', ha', hnone'⟩ := hcrossed
  exact ⟨⟨s, hrun, hsettled, hcalled, not_profiled_of_none ha hnone⟩,
    s', hrun', hsettled', hcalled', not_profiled_of_none ha' hnone'⟩

end Accounts

end PhoRent
