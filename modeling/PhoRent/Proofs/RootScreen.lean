import PhoRent.App.Router

/-!
# The root of the window and the authentication

The window should show the content exactly while somebody is signed in. The
listener opens the content for a user; for nobody it asks the splash screen's
router for the intro, and that router has given up its navigation controller
when the content was opened. What takes the content away is the block of a
log-out, which looks neither at the listener nor at the user.

So the two must come together: nobody is reported while the content is shown
only if a log-out is on its way, and a log-out comes through when nobody has
been reported last.
-/

namespace PhoRent

open Machine

namespace AppRoot

/-- The content is shown if and only if the last notification had a user. -/
def FollowsAuth (s : AppRoot) : Prop :=
  s.window.rootViewController = .tabBarController ↔ s.lastUser = some true

def Paired (s : AppRoot) : AuthEvent → Prop
  | .stateChanged false =>
      s.window.rootViewController = .tabBarController → s.blocks ≠ []
  | .block => s.blocks.length = 1 → s.lastUser ≠ some true
  | .stateChanged true | .logOut _ => True

section Steps

variable {s s' : AppRoot}

@[simp] theorem showIntro_root (router : Router) (window : AppWindow) :
    (router.showIntro window).rootViewController =
      window.rootViewController := by
  unfold Router.showIntro
  split <;> rfl

/-- After a step the root is right, once no log-out is under way, if and only
if the step was paired. -/
theorem follows_iff {e : AuthEvent} (h : s.blocks = [] → s.FollowsAuth)
    (hs : s.handle e = some s') :
    (s'.blocks = [] → s'.FollowsAuth) ↔ s.Paired e := by
  cases e with
  | stateChanged user =>
      obtain rfl := Option.some.inj hs
      cases user with
      | true => exact iff_of_true (fun _ => iff_of_true rfl rfl) trivial
      | false =>
          simp only [stateChanged, Bool.false_eq_true, if_false, FollowsAuth,
            showIntro_root, Option.some.injEq, iff_false, Paired]
          exact ⟨fun h hroot hnil => h hnil hroot,
            fun h hnil hroot => h hroot hnil⟩
  | logOut signedOut =>
      obtain ⟨router, -, rfl⟩ := Option.map_eq_some_iff.mp hs
      refine iff_of_true ?_ trivial
      cases signedOut with
      | true => simp
      | false => exact h
  | block =>
      simp only [handle] at hs
      split at hs
      · cases hs
      · next router blocks hblocks =>
          obtain rfl := Option.some.inj hs
          have hroot : (router.logOut s.window).2.rootViewController ≠
              .tabBarController := nofun
          simp only [FollowsAuth, hroot, false_iff, Paired, hblocks,
            List.length_cons, Nat.add_eq_right, List.length_eq_zero_iff]

end Steps

/-- Along every run of paired steps the root follows the authentication
whenever no log-out is under way, and the next step keeps it so exactly if it
is paired too. -/
theorem follows_of_run {s : AppRoot} (hrun : Run handle Paired start s) :
    (s.blocks = [] → s.FollowsAuth) ∧ ∀ e s', s.handle e = some s' →
      ((s'.blocks = [] → s'.FollowsAuth) ↔ s.Paired e) := by
  have hinv : s.blocks = [] → s.FollowsAuth := by
    refine hrun.invariant (I := fun s => s.blocks = [] → s.FollowsAuth)
      (fun s e s' h hok hs => (follows_iff h hs).mpr hok) ?_
    intro _
    exact iff_of_false (by decide) (by decide)
  exact ⟨hinv, fun e s' hs => follows_iff hinv hs⟩

instance (s : AppRoot) : DecidablePred s.Paired
  | .stateChanged false => inferInstanceAs (Decidable (_ → _))
  | .block => inferInstanceAs (Decidable (_ → _))
  | .stateChanged true | .logOut _ => .isTrue trivial

instance (s : AppRoot) : Decidable s.FollowsAuth :=
  inferInstanceAs (Decidable (_ ↔ _))

/-- Signed in, logged out, and signed in again. -/
theorem follows_of_run_again :
    ∃ s, Run handle Paired start s ∧ s.lastUser = some true ∧
      s.blocks = [] ∧ s.FollowsAuth := by
  obtain ⟨s, hrun, huser, hblocks⟩ : ∃ s, Run handle Paired start s ∧
      s.lastUser = some true ∧ s.blocks = [] :=
    exists_run_of_play
      [.stateChanged false, .stateChanged true, .logOut true,
        .stateChanged false, .block, .stateChanged true]
      (by decide +kernel)
  exact ⟨s, hrun, huser, hblocks, (follows_of_run hrun).1 hblocks⟩

/-- The session of a user is revoked, and the content stays. -/
theorem follows_fails :
    ∃ s, Run handle (fun _ _ => True) start s ∧ s.blocks = [] ∧
      s.lastUser = some false ∧
      s.window.rootViewController = .tabBarController ∧ ¬ s.FollowsAuth :=
  exists_run_of_play [.stateChanged true, .stateChanged false]
    (by decide +kernel)

end AppRoot

end PhoRent
