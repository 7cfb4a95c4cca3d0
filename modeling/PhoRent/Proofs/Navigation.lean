import Mathlib.Data.List.Chain
import Mathlib.Data.List.Forall2
import PhoRent.App.Navigation

/-!
# No dead buttons

A button whose router holds no navigation controller does nothing, and one
whose router holds another does something nobody sees. There are such screens:
those under the splash screen once the content is open, those of a tab once
its router has logged out. But they are never on display. The router of a
screen on display holds the navigation controller the screen is in.

The invariant has to know that only the content logs out: the splash screen's
router is the one router that is given up for good.
-/

namespace PhoRent

open Machine

inductive Screen.Opens : Screen → Tap → Screen → Prop
  | signUp : Opens .intro .openSignUp .signUp
  | login : Opens .intro .openSignIn .login
  | passwordDrop : Opens .login .openPasswordDrop .passwordDrop
  | aboutUs : Opens .personal .showAboutUs .aboutUs
  | orders : Opens .aboutUs .showOrders .orders
  | category (category : Category) :
      Opens .mainSearch (.cellPicked category) (.category category)

/-- The screens there are before somebody is signed in. -/
def Screen.BeforeContent : Screen → Prop
  | .splashScreen | .intro | .login | .signUp | .passwordDrop => True
  | _ => False

namespace Navigation

/-- Each screen has been opened by the one below it. -/
structure Path (first : Screen) (stack : List Controller) : Prop where
  head : stack.head?.map Controller.screen = some first
  chain : stack.IsChain fun a b => ∃ tap, a.screen.Opens tap b.screen

section Paths

variable {first : Screen} {stack : List Controller}

theorem path_singleton (screen : Screen) (router : ℕ) :
    Path screen [⟨screen, router⟩] :=
  ⟨rfl, List.isChain_singleton _⟩

theorem Path.ne_nil (h : Path first stack) : stack ≠ [] := by
  rintro rfl
  cases h.head

/-- Going back leaves a path, as long as the first screen stays. -/
theorem Path.take (h : Path first stack) {k : ℕ} (hk : 0 < k) :
    Path first (stack.take k) := by
  refine ⟨?_, h.chain.take k⟩
  rw [List.head?_take, if_neg (by omega)]
  exact h.head

theorem Path.concat (h : Path first stack) {top : Controller}
    (htop : stack.getLast? = some top) {tap : Tap} {screen : Screen}
    (hopens : top.screen.Opens tap screen) (router : ℕ) :
    Path first (stack ++ [⟨screen, router⟩]) := by
  refine ⟨?_, h.chain.append (List.isChain_singleton _) ?_⟩
  · rw [List.head?_append, Option.map_or, h.head]
    rfl
  · intro x hx y hy
    obtain rfl := Option.some.inj (htop.symm.trans hx)
    obtain rfl := Option.some.inj hy
    exact ⟨tap, hopens⟩

theorem Screen.Opens.beforeContent {a b : Screen} {tap : Tap}
    (h : a.Opens tap b) (ha : a.BeforeContent) : b.BeforeContent := by
  cases h with
  | signUp | login | passwordDrop => trivial
  | aboutUs | orders | category => exact ha.elim

theorem Path.beforeContent (h : Path first stack)
    (hfirst : first.BeforeContent) :
    ∀ c ∈ stack, c.screen.BeforeContent := by
  refine h.chain.induction (fun c => c.screen.BeforeContent) stack
    (fun a b hab ha => ?_) fun hne => ?_
  · obtain ⟨tap, hopens⟩ := hab
    exact Screen.Opens.beforeContent hopens ha
  · have hhead := h.head
    rw [List.head?_eq_some_head hne, Option.map_some,
      Option.some.injEq] at hhead
    rw [hhead]
    exact hfirst

end Paths

/-! ## The invariant -/

/-- The navigation controller has a path, and the routers of the screens on it
hold this navigation controller. -/
def Holds (s : Navigation) (first : Screen) (n : ℕ) : Prop :=
  ∃ stack, s.controllers[n]? = some stack ∧ Path first stack ∧
    ∀ c ∈ stack, s.navigationController c.router = some n

def firstScreens : List Screen :=
  [.splashScreen, .intro, .personal, .mainSearch, .basket]

/-- What is on display: the splash screen or the intro, or the three tabs. -/
def Displays (s : Navigation) : Root → Prop
  | .navigationController n => s.Holds .splashScreen n ∨ s.Holds .intro n
  | .tabBarController viewControllers selectedIndex =>
      List.Forall₂ s.Holds [.personal, .mainSearch, .basket] viewControllers ∧
        selectedIndex < viewControllers.length

structure Sound (s : Navigation) : Prop where
  displays : s.Displays s.root
  -- the splash screen's router, before the content has been opened and after
  splash : (s.root = .navigationController 0 ∧
    s.navigationController 0 = some 0 ∧ s.blocks = []) ∨
      s.navigationController 0 = none
  exists_router : 0 < s.routers.length
  blocks : ∀ r ∈ s.blocks, r ≠ 0 ∧ r < s.routers.length

section Steps

variable {s s' : Navigation} {first : Screen} {n : ℕ}

theorem sound_start (colorScheme : Option String) :
    (start colorScheme).Sound := by
  refine ⟨Or.inl ⟨_, rfl, path_singleton _ 0, fun c hc => ?_⟩,
    Or.inl ⟨rfl, rfl, rfl⟩, Nat.one_pos, nofun⟩
  obtain rfl := List.mem_singleton.mp hc
  rfl

theorem navigationController_lt {r : ℕ}
    (h : s.navigationController r = some n) : r < s.routers.length := by
  have hget := Option.join_eq_some_iff.mp h
  exact (List.getElem?_eq_some_iff.mp hget).1

theorem Holds.modify (h : s.Holds first n) {m : ℕ}
    {f : List Controller → List Controller}
    (hf : ∀ stack, s.controllers[m]? = some stack → Path first stack →
      Path first (f stack) ∧ ∀ c ∈ f stack, c ∈ stack ∨
        s.navigationController c.router = some m) :
    Holds { s with controllers := s.controllers.modify m f } first n := by
  obtain ⟨stack, hstack, hpath, hwired⟩ := h
  by_cases hm : m = n
  · subst hm
    obtain ⟨hpath', hmem⟩ := hf stack hstack hpath
    refine ⟨f stack, ?_, hpath', fun c hc => ?_⟩
    · rw [List.getElem?_modify_eq, hstack]
      rfl
    · exact (hmem c hc).elim (hwired c) id
  · refine ⟨stack, ?_, hpath, hwired⟩
    rw [List.getElem?_modify_ne _ _ hm]
    exact hstack

theorem Displays.imp {root : Root} (h : s.Displays root)
    (himp : ∀ first n, s.Holds first n → s'.Holds first n) :
    s'.Displays root := by
  cases root with
  | navigationController n =>
      exact Or.imp (himp _ n) (himp _ n) h
  | tabBarController viewControllers selectedIndex =>
      exact ⟨h.1.imp himp, h.2⟩

structure Keeps (s s' : Navigation) : Prop where
  root : s'.root = s.root
  routers : s'.routers = s.routers
  holds : ∀ first n, s.Holds first n → s'.Holds first n

theorem Keeps.navigationController (h : s.Keeps s') (r : ℕ) :
    s'.navigationController r = s.navigationController r := by
  rw [Navigation.navigationController, h.routers,
    Navigation.navigationController]

theorem keeps_refl : s.Keeps s := ⟨rfl, rfl, fun _ _ => id⟩

theorem keeps_modify {m : ℕ} {f : List Controller → List Controller}
    (hf : ∀ first stack, s.controllers[m]? = some stack → Path first stack →
      Path first (f stack) ∧ ∀ c ∈ f stack, c ∈ stack ∨
        s.navigationController c.router = some m) :
    s.Keeps { s with controllers := s.controllers.modify m f } :=
  ⟨rfl, rfl, fun _ _ hn => hn.modify (hf _)⟩

theorem keeps_take {m : ℕ} {k : List Controller → ℕ}
    (hk : ∀ stack, 0 < k stack) :
    s.Keeps { s with
      controllers := s.controllers.modify m fun stack =>
        stack.take (k stack) } :=
  keeps_modify fun _ stack _ hpath =>
    ⟨hpath.take (hk stack), fun _ hc => Or.inl (List.mem_of_mem_take hc)⟩

theorem Sound.of_keeps (h : s.Sound) (hkeeps : s.Keeps s')
    (hblocks : ∀ r ∈ s'.blocks, r ≠ 0 ∧ r < s.routers.length)
    (hnil : s.navigationController 0 ≠ none → s'.blocks = s.blocks) :
    s'.Sound := by
  refine ⟨?_, ?_, by rw [hkeeps.routers]; exact h.exists_router, ?_⟩
  · rw [hkeeps.root]
    exact h.displays.imp hkeeps.holds
  · rw [hkeeps.root, hkeeps.navigationController]
    refine h.splash.imp_left fun ⟨hroot, hzero, hb⟩ => ⟨hroot, hzero, ?_⟩
    rw [hnil (by rw [hzero]; exact Option.some_ne_none 0), hb]
  · rw [hkeeps.routers]
    exact hblocks

theorem Sound.visible (h : s.Sound) : ∃ n first, s.visible = some n ∧
    s.Holds first n ∧ first ∈ firstScreens ∧
      (s.navigationController 0 ≠ none → first.BeforeContent) := by
  have hdisplays := h.displays
  rw [Navigation.visible]
  cases hroot : s.root with
  | navigationController n =>
      rw [hroot] at hdisplays
      rcases hdisplays with hn | hn
      · exact ⟨n, _, rfl, hn, by decide, fun _ => trivial⟩
      · exact ⟨n, _, rfl, hn, by decide, fun _ => trivial⟩
  | tabBarController viewControllers selectedIndex =>
      rw [hroot] at hdisplays
      obtain ⟨htabs, hlt⟩ := hdisplays
      have hget := List.getElem?_eq_getElem hlt
      have hlt' := htabs.length_eq ▸ hlt
      refine ⟨_, _, hget, htabs.get hlt' hlt,
        List.mem_append_right [Screen.splashScreen, .intro]
          (List.get_mem _ _),
        fun hsplash => ?_⟩
      rcases h.splash with ⟨hroot', -⟩ | hnone
      · rw [hroot] at hroot'
        cases hroot'
      · exact absurd hnone hsplash

theorem Sound.keeps_push (h : s.Sound) {top : Controller}
    (htop : s.shown.getLast? = some top) {tap : Tap} {screen : Screen}
    (hopens : top.screen.Opens tap screen) :
    s.Keeps (s.push top.router screen) := by
  rw [Navigation.push]
  split
  · next m hm =>
      obtain ⟨n, first, hn, ⟨stack, hstack, hpath, hwired⟩, -, -⟩ := h.visible
      rw [shown, hn, Option.bind_some, hstack, Option.getD_some] at htop
      have hmn := (hwired top (List.mem_of_getLast? htop)).symm.trans hm
      obtain rfl := Option.some.inj hmn
      refine keeps_modify fun first' stack' hstack' hpath' => ?_
      obtain rfl := Option.some.inj (hstack.symm.trans hstack')
      refine ⟨hpath'.concat htop hopens _, fun c hc => ?_⟩
      rcases List.mem_append.mp hc with hc | hc
      · exact Or.inl hc
      · obtain rfl := List.mem_singleton.mp hc
        exact Or.inr hm
  · exact keeps_refl

theorem keeps_popToRoot (r : ℕ) : s.Keeps (s.popToRoot r) := by
  rw [Navigation.popToRoot]
  split
  · exact keeps_take (k := fun _ => 1) fun _ => Nat.one_pos
  · exact keeps_refl

theorem keeps_popViewController : s.Keeps s.popViewController := by
  rw [Navigation.popViewController]
  split
  · exact keeps_take fun stack => lt_max_of_lt_left Nat.one_pos
  · exact keeps_refl

theorem keeps_changeSchemeColor : s.Keeps s.changeSchemeColor := by
  rw [Navigation.changeSchemeColor]
  split <;> exact ⟨rfl, rfl, fun _ _ => id⟩

/-- Where there is an about-us screen the content has been opened, and its
router is not the splash screen's. -/
theorem Sound.aboutUs (h : s.Sound) {top : Controller}
    (htop : s.shown.getLast? = some top) (habout : top.screen = .aboutUs) :
    s.navigationController 0 = none ∧ top.router ≠ 0 ∧
      top.router < s.routers.length := by
  obtain ⟨n, first, hn, ⟨stack, hstack, hpath, hwired⟩, -, hbefore⟩ :=
    h.visible
  rw [shown, hn, Option.bind_some, hstack, Option.getD_some] at htop
  have hmem := List.mem_of_getLast? htop
  have hnone : s.navigationController 0 = none := by
    by_contra hsome
    have hauth := hpath.beforeContent (hbefore hsome) top hmem
    rw [habout] at hauth
    exact hauth
  have hrouter := hwired top hmem
  refine ⟨hnone, fun hzero => ?_, navigationController_lt hrouter⟩
  rw [hzero, hnone] at hrouter
  cases hrouter

/-! ### New navigation controllers -/

theorem navigationController_append {r : ℕ} (hr : r < s.routers.length)
    {routers : List (Option ℕ)} {controllers : List (List Controller)}
    {root : Root} :
    navigationController { s with
      controllers := controllers
      routers := s.routers ++ routers
      root := root } r = s.navigationController r := by
  rw [navigationController, List.getElem?_append_left hr,
    navigationController]

theorem Sound.tabs (hsplash : s.navigationController 0 = none)
    (hrouter : 0 < s.routers.length)
    (hblocks : ∀ r ∈ s.blocks, r ≠ 0 ∧ r < s.routers.length) :
    s.tabs.Sound := by
  have hholds : ∀ (i : ℕ) (screen : Screen), i < 3 →
      s.tabs.controllers[s.controllers.length + i]? =
        some [⟨screen, s.routers.length + i⟩] →
      s.tabs.Holds screen (s.controllers.length + i) := by
    intro i screen hi hget
    refine ⟨_, hget, path_singleton _ _, fun c hc => ?_⟩
    obtain rfl := List.mem_singleton.mp hc
    simp only [navigationController, Navigation.tabs]
    rw [List.getElem?_append_right (Nat.le_add_right _ _),
      Nat.add_sub_cancel_left]
    match i, hi with
    | 0, _ | 1, _ | 2, _ => rfl
  refine ⟨⟨.cons (hholds 0 _ (by omega) ?_) (.cons (hholds 1 _ (by omega) ?_)
    (.cons (hholds 2 _ (by omega) ?_) .nil)), Nat.one_lt_succ_succ 1⟩,
    Or.inr ?_, ?_, ?_⟩
  · simp [Navigation.tabs]
  · simp [Navigation.tabs]
  · simp [Navigation.tabs]
  · exact (navigationController_append hrouter).trans hsplash
  · simp only [Navigation.tabs, List.length_append]
    omega
  · intro r hr
    obtain ⟨hne, hlt⟩ := hblocks r hr
    simp only [Navigation.tabs, List.length_append]
    exact ⟨hne, by omega⟩

theorem navigationController_set {r : ℕ} {x : Option ℕ}
    (h : s'.routers = s.routers.set r x) (r' : ℕ) :
    s'.navigationController r' = if r = r' ∧ r < s.routers.length then x
      else s.navigationController r' := by
  rw [navigationController, navigationController, h, List.getElem?_set]
  by_cases hr : r = r'
  · subst hr
    by_cases hlt : r < s.routers.length
    · simp [hlt]
    · simp [hlt]
  · simp [hr]

theorem Sound.showContent (h : s.Sound) : (s.showContent 0).Sound := by
  have hlength : (s.destroyInitialModule 0).routers.length =
      s.routers.length := List.length_set ..
  refine Sound.tabs ?_ (by rw [hlength]; exact h.exists_router) ?_
  · rw [navigationController_set (s := s) rfl, if_pos ⟨rfl, h.exists_router⟩]
  · rw [hlength]
    exact h.blocks

theorem Holds.lt (h : s.Holds first n) : n < s.controllers.length := by
  obtain ⟨stack, hstack, -⟩ := h
  exact (List.getElem?_eq_some_iff.mp hstack).1

theorem holds_showIntro (hlt : n < s.controllers.length)
    (hzero : s.navigationController 0 = some n) :
    (s.showIntro 0).Holds .intro n := by
  rw [Navigation.showIntro, hzero]
  refine ⟨_, List.getElem?_set_self hlt, path_singleton _ 0, fun c hc => ?_⟩
  obtain rfl := List.mem_singleton.mp hc
  exact hzero

/-- While the splash screen's router holds a navigation controller it is the
one on display. -/
theorem Sound.showIntro (h : s.Sound) : (s.showIntro 0).Sound := by
  rcases h.splash with ⟨hroot, hzero, hblocks⟩ | hnone
  · have hlt : 0 < s.controllers.length := by
      have hdisplays := h.displays
      rw [hroot] at hdisplays
      rcases hdisplays with hn | hn
      · exact hn.lt
      · exact hn.lt
    have hholds := holds_showIntro hlt hzero
    rw [Navigation.showIntro, hzero] at hholds ⊢
    refine ⟨?_, Or.inl ⟨hroot, hzero, hblocks⟩, h.exists_router, h.blocks⟩
    change (s.setViewControllers 0 _).Displays s.root
    rw [hroot]
    exact Or.inr hholds
  · rw [Navigation.showIntro, hnone]
    exact h

theorem routers_logOut (r : ℕ) : (s.logOut r).routers =
    s.routers.set r (some s.controllers.length) := List.set_set ..

theorem holds_logOut {r : ℕ} (hlt : r < s.routers.length) :
    (s.logOut r).Holds .intro s.controllers.length := by
  refine ⟨_, List.getElem?_concat_length, path_singleton _ r, fun c hc => ?_⟩
  obtain rfl := List.mem_singleton.mp hc
  exact (navigationController_set (routers_logOut r) r).trans
    (if_pos ⟨rfl, hlt⟩)

/-- A log-out comes from the content. -/
theorem Sound.opened (h : s.Sound) {r : ℕ} (hr : r ∈ s.blocks) :
    s.navigationController 0 = none := by
  rcases h.splash with ⟨-, -, hnil⟩ | hnone
  · rw [hnil] at hr
    cases hr
  · exact hnone

/-- The splash screen's router never logs out. -/
theorem Sound.splash_logOut (h : s.Sound) {r : ℕ} (hr : r ∈ s.blocks) :
    (s.logOut r).navigationController 0 = none := by
  refine (navigationController_set (routers_logOut r) 0).trans ?_
  rw [if_neg fun hzero => (h.blocks r hr).1 hzero.1]
  exact h.opened hr

theorem Sound.logOut (h : s.Sound) {r : ℕ} {blocks : List ℕ}
    (hr : s.blocks = r :: blocks) :
    Sound { s.logOut r with blocks := blocks } := by
  have hmem : r ∈ s.blocks := by
    rw [hr]
    exact List.mem_cons_self
  have hlength : (s.logOut r).routers.length = s.routers.length := by
    rw [routers_logOut, List.length_set]
  refine ⟨Or.inr (holds_logOut (h.blocks r hmem).2), Or.inr
    (h.splash_logOut hmem), hlength ▸ h.exists_router, fun r' hr' => ?_⟩
  obtain ⟨hne, hlt⟩ := h.blocks r' (by
    rw [hr]
    exact List.mem_cons_of_mem _ hr')
  exact ⟨hne, hlength ▸ hlt⟩

end Steps

/-! ## Taps -/

section Taps

variable {s s' : Navigation} {router : ℕ} {screen : Screen} {t : Tap}

theorem tap_of_opens {next : Screen} (h : screen.Opens t next) :
    s.tap router screen t = some (s.push router next) := by
  cases h <;> rfl

theorem tap_cases (h : s.tap router screen t = some s') :
    (∃ next, screen.Opens t next ∧ s' = s.push router next) ∨
    (t = .pop ∧ s' = s.popToRoot router) ∨
    (t = .back ∧ s' = s.popViewController) ∨
    (t = .changeSchemeColor ∧ s' = s.changeSchemeColor) ∨
    (∃ signedOut, screen = .aboutUs ∧ t = .logOut signedOut ∧
      s' = if signedOut then { s with blocks := s.blocks ++ [router] }
        else s) := by
  unfold tap at h
  split at h <;> cases h
  · exact Or.inl ⟨_, .signUp, rfl⟩
  · exact Or.inl ⟨_, .login, rfl⟩
  · exact Or.inl ⟨_, .passwordDrop, rfl⟩
  · exact Or.inr (Or.inl ⟨rfl, rfl⟩)
  · exact Or.inr (Or.inl ⟨rfl, rfl⟩)
  · exact Or.inr (Or.inl ⟨rfl, rfl⟩)
  · exact Or.inr (Or.inl ⟨rfl, rfl⟩)
  · exact Or.inl ⟨_, .aboutUs, rfl⟩
  · exact Or.inl ⟨_, .orders, rfl⟩
  · exact Or.inr (Or.inr (Or.inr (Or.inl ⟨rfl, rfl⟩)))
  · exact Or.inr (Or.inr (Or.inr (Or.inr ⟨_, rfl, rfl, rfl⟩)))
  · exact Or.inl ⟨_, .category _, rfl⟩
  · exact Or.inr (Or.inr (Or.inl ⟨rfl, rfl⟩))

def queued (router : ℕ) : Tap → List ℕ
  | .logOut true => [router]
  | _ => []

/-- Only a log-out queues a block; apart from that a tap moves screens. -/
theorem Sound.tapped_spec (h : s.Sound) {top : Controller}
    (htop : s.shown.getLast? = some top)
    (hs : s.tap top.router top.screen t = some s') :
    s.Keeps s' ∧ s'.blocks = s.blocks ++ queued top.router t ∧
      (∀ signedOut, t = .logOut signedOut → top.screen = .aboutUs) := by
  rcases tap_cases hs with ⟨next, hopens, rfl⟩ | ⟨rfl, rfl⟩ | ⟨rfl, rfl⟩ |
    ⟨rfl, rfl⟩ | ⟨signedOut, habout, rfl, rfl⟩
  · have hkeeps := h.keeps_push htop hopens
    generalize top.screen = screen at hopens
    refine ⟨hkeeps, ?_, fun signedOut hlogOut => ?_⟩
    · rw [push]
      cases hopens <;> split <;> exact (List.append_nil _).symm
    · subst hlogOut
      cases hopens
  · refine ⟨keeps_popToRoot _, ?_, nofun⟩
    rw [popToRoot]
    split <;> exact (List.append_nil _).symm
  · refine ⟨keeps_popViewController, ?_, nofun⟩
    rw [popViewController]
    split <;> exact (List.append_nil _).symm
  · refine ⟨keeps_changeSchemeColor, ?_, nofun⟩
    rw [changeSchemeColor]
    split <;> exact (List.append_nil _).symm
  · cases signedOut with
    | false => exact ⟨keeps_refl, (List.append_nil _).symm, fun _ _ => habout⟩
    | true => exact ⟨⟨rfl, rfl, fun _ _ => id⟩, rfl, fun _ _ => habout⟩

theorem Sound.tapped (h : s.Sound) {top : Controller}
    (htop : s.shown.getLast? = some top)
    (hs : s.tap top.router top.screen t = some s') : s'.Sound := by
  obtain ⟨hkeeps, hblocks, habout⟩ := h.tapped_spec htop hs
  have hqueued : queued top.router t = [] ∨ top.screen = .aboutUs ∧
      queued top.router t = [top.router] := by
    cases t with
    | logOut signedOut =>
        cases signedOut with
        | false => exact Or.inl rfl
        | true => exact Or.inr ⟨habout true rfl, rfl⟩
    | _ => exact Or.inl rfl
  rcases hqueued with hnone | ⟨hscreen, hone⟩
  · rw [hnone, List.append_nil] at hblocks
    refine h.of_keeps hkeeps ?_ fun _ => hblocks
    rw [hblocks]
    exact h.blocks
  · obtain ⟨hnone, hrouter⟩ := h.aboutUs htop hscreen
    refine h.of_keeps hkeeps (fun r hr => ?_) fun hsome => absurd hnone hsome
    rw [hblocks, hone] at hr
    rcases List.mem_append.mp hr with hr | hr
    · exact h.blocks r hr
    · obtain rfl := List.mem_singleton.mp hr
      exact hrouter

theorem Sound.handle {e : NavigationEvent} (h : s.Sound)
    (hs : s.handle e = some s') : s'.Sound := by
  cases e with
  | stateChanged user =>
      obtain rfl := Option.some.inj hs
      cases user with
      | true => exact h.showContent
      | false => exact h.showIntro
  | block =>
      simp only [Navigation.handle] at hs
      split at hs
      · cases hs
      · next hblocks =>
          obtain rfl := Option.some.inj hs
          exact h.logOut hblocks
  | tabBarAppeared =>
      simp only [Navigation.handle] at hs
      split at hs
      · next hroot =>
          obtain rfl := Option.some.inj hs
          refine Sound.tabs ?_ h.exists_router h.blocks
          rcases h.splash with ⟨hroot', -⟩ | hnone
          · rw [hroot] at hroot'
            cases hroot'
          · exact hnone
      · cases hs
  | tabSelected index =>
      simp only [Navigation.handle] at hs
      split at hs
      · next viewControllers selectedIndex hroot =>
          split at hs
          · next hlt =>
              obtain rfl := Option.some.inj hs
              have hdisplays := h.displays
              rw [hroot] at hdisplays
              refine ⟨⟨hdisplays.1, hlt⟩, Or.inr ?_, h.exists_router, h.blocks⟩
              rcases h.splash with ⟨hroot', -⟩ | hnone
              · rw [hroot] at hroot'
                cases hroot'
              · exact hnone
          · cases hs
      · cases hs
  | tapped t =>
      obtain ⟨top, htop, hs⟩ := Option.bind_eq_some_iff.mp hs
      exact h.tapped htop hs

end Taps

theorem sound_of_run {colorScheme : Option String} {s : Navigation}
    (h : Run handle (fun _ _ => True) (start colorScheme) s) : s.Sound :=
  h.invariant (fun _ _ _ h _ => h.handle) (sound_start colorScheme)

theorem shown_modify {s : Navigation} {n : ℕ} {stack : List Controller}
    (hn : s.visible = some n) (hstack : s.controllers[n]? = some stack)
    (f : List Controller → List Controller) :
    shown { s with controllers := s.controllers.modify n f } = f stack := by
  have hvisible : visible
      { s with controllers := s.controllers.modify n f } = some n := hn
  rw [shown, hvisible, Option.bind_some, List.getElem?_modify_eq, hstack]
  rfl

/-- In whatever order people sign in and out, log-outs come through and buttons
are tapped: there is always a screen on display. Those under it have opened one
another, from a screen that opens without a tap; every button that opens a
screen puts it on top of them, and the way to the root leads to the first. -/
theorem displayed_of_run {colorScheme : Option String} {s : Navigation}
    (h : Run handle (fun _ _ => True) (start colorScheme) s) :
    ∃ first top, first ∈ firstScreens ∧ Path first s.shown ∧
      s.shown.getLast? = some top ∧
      (∀ t next, top.screen.Opens t next →
        ∃ s', s.handle (.tapped t) = some s' ∧
          s'.shown = s.shown ++ [⟨next, top.router⟩]) ∧
      ∀ s', s.handle (.tapped .pop) = some s' →
        s'.shown = s.shown.take 1 := by
  obtain ⟨n, first, hn, ⟨stack, hstack, hpath, hwired⟩, hfirst, -⟩ :=
    (sound_of_run h).visible
  have hshown : s.shown = stack := by
    rw [shown, hn, Option.bind_some, hstack, Option.getD_some]
  obtain ⟨top, htop⟩ : ∃ top, stack.getLast? = some top :=
    ⟨_, List.getLast?_eq_some_getLast hpath.ne_nil⟩
  have hrouter := hwired top (List.mem_of_getLast? htop)
  have htap : ∀ t, s.handle (.tapped t) =
      s.tap top.router top.screen t := by
    intro t
    rw [handle, hshown, htop, Option.bind_some]
  rw [hshown]
  refine ⟨first, top, hfirst, hpath, htop, fun t next hopens => ?_,
    fun s' hs' => ?_⟩
  · refine ⟨_, (htap t).trans (tap_of_opens hopens), ?_⟩
    rw [push, hrouter]
    exact shown_modify hn hstack _
  · rw [htap] at hs'
    obtain rfl : s' = s.popToRoot top.router := by
      rcases tap_cases hs' with ⟨next, hopens, -⟩ | ⟨-, hpop⟩ | ⟨hback, -⟩ |
        ⟨hscheme, -⟩ | ⟨signedOut, -, hlogOut, -⟩
      · generalize top.screen = screen at hopens
        cases hopens
      · exact hpop
      · cases hback
      · cases hscheme
      · cases hlogOut
    rw [popToRoot, hrouter]
    exact shown_modify hn hstack _

/-- Signed in, to the orders, logged out, and back to the log-in. -/
theorem displayed_of_run_again :
    ∃ s, Run handle (fun _ _ => True) (start none) s ∧
      s.shown.map Controller.screen = [.intro, .login] ∧
      ∃ s', s.handle (.tapped .openPasswordDrop) = some s' ∧
        s'.shown.map Controller.screen = [.intro, .login, .passwordDrop] := by
  obtain ⟨s, hrun, hshown, htop⟩ : ∃ s,
      Run handle (fun _ _ => True) (start none) s ∧
        s.shown.map Controller.screen = [.intro, .login] ∧
        s.shown.getLast?.map Controller.screen = some .login :=
    exists_run_of_play
      [.stateChanged false, .tapped .openSignIn, .stateChanged true,
        .tabSelected 0, .tapped .showAboutUs, .tapped .showOrders,
        .tapped .back, .tapped (.logOut true), .stateChanged false, .block,
        .tapped .openSignIn]
      (by decide +kernel)
  obtain ⟨-, top, -, -, hlast, hopens, -⟩ := displayed_of_run hrun
  obtain ⟨s', hs', hshown'⟩ := hopens .openPasswordDrop .passwordDrop (by
    rw [hlast, Option.map_some, Option.some.injEq] at htop
    rw [htop]
    exact .passwordDrop)
  refine ⟨s, hrun, hshown, s', hs', ?_⟩
  rw [hshown', List.map_append, hshown]
  rfl

/-! ## The root

The root alone is that of `AppRoot`: for the events it has, it shows what the
whole app shows underneath whatever has been pushed. -/

end Navigation

/-- The event, if it is one of `AppRoot`. -/
def NavigationEvent.auth? : NavigationEvent → Option AuthEvent
  | .stateChanged user => some (.stateChanged user)
  | .block => some .block
  | .tapped (.logOut signedOut) => some (.logOut signedOut)
  | _ => none

def ViewController.asScreen : ViewController → Screen
  | .splashScreen => .splashScreen
  | .intro => .intro
  | .personal => .personal

namespace Navigation

/-- The root shows the tab bar for both, or the same first screen. -/
def SameRoot (s : Navigation) (window : AppWindow) :
    Root → RootViewController → Prop
  | .navigationController n, .navigationController m =>
      ∃ viewController, window.controllers[m]? = some [viewController] ∧
        s.Holds viewController.asScreen n
  | .tabBarController _ _, .tabBarController => True
  | _, _ => False

structure Mirrors (s : Navigation) (a : AppRoot) : Prop where
  root : s.SameRoot a.window s.root a.window.rootViewController
  blocks : s.blocks.length = a.blocks.length
  -- before the content has been opened, and after
  splash : (s.root = .navigationController 0 ∧
      s.navigationController 0 = some 0 ∧
      ∃ m, a.window.rootViewController = .navigationController m ∧
        a.splashRouter.navigationController = some m) ∨
    (s.navigationController 0 = none ∧
      a.splashRouter.navigationController = none ∧ a.contentRouter ≠ none)

section Root

variable {s s' : Navigation} {a : AppRoot}

theorem mirrors_start (colorScheme : Option String) :
    (start colorScheme).Mirrors AppRoot.start := by
  refine ⟨⟨.splashScreen, rfl, _, rfl, path_singleton _ 0, fun c hc => ?_⟩,
    rfl, Or.inl ⟨rfl, rfl, 0, rfl, rfl⟩⟩
  obtain rfl := List.mem_singleton.mp hc
  rfl

theorem SameRoot.imp {window : AppWindow} {root : Root}
    {rootViewController : RootViewController}
    (h : s.SameRoot window root rootViewController)
    (himp : ∀ first n, s.Holds first n → s'.Holds first n) :
    s'.SameRoot window root rootViewController := by
  cases root with
  | navigationController n =>
      cases rootViewController with
      | navigationController m =>
          obtain ⟨viewController, hget, hholds⟩ := h
          exact ⟨viewController, hget, himp _ _ hholds⟩
      | tabBarController => exact h
  | tabBarController => cases rootViewController <;> exact h

theorem Mirrors.of_keeps (h : s.Mirrors a) (hkeeps : s.Keeps s')
    {blocks : List Router} (hblocks : s'.blocks.length = blocks.length) :
    s'.Mirrors { a with blocks := blocks } := by
  refine ⟨?_, hblocks, ?_⟩
  · rw [hkeeps.root]
    exact h.root.imp hkeeps.holds
  · rw [hkeeps.root, hkeeps.navigationController]
    exact h.splash

theorem Mirrors.stateChanged (h : s.Mirrors a) (hsound : s.Sound)
    (user : Bool) : (s.stateChanged user).Mirrors (a.stateChanged user) := by
  cases user with
  | true =>
      refine ⟨trivial, h.blocks, Or.inr ⟨?_, rfl, Option.some_ne_none _⟩⟩
      have hlength : (s.destroyInitialModule 0).routers.length =
          s.routers.length := List.length_set ..
      refine (navigationController_append
        (hlength ▸ hsound.exists_router)).trans ?_
      rw [navigationController_set (s := s) rfl,
        if_pos ⟨rfl, hsound.exists_router⟩]
  | false =>
      rcases h.splash with ⟨hroot, hzero, m, haroot, hm⟩ | ⟨hnone, hanone, hc⟩
      · have hsame := h.root
        rw [hroot, haroot] at hsame
        obtain ⟨viewController, hget, hholds⟩ := hsame
        have hintro := holds_showIntro hholds.lt hzero
        have hlt := (List.getElem?_eq_some_iff.mp hget).1
        simp only [Navigation.stateChanged, AppRoot.stateChanged,
          Navigation.showIntro, Router.showIntro, hzero, hm,
          Bool.false_eq_true, if_false] at hintro ⊢
        refine ⟨?_, h.blocks, Or.inl ⟨hroot, hzero, m, haroot, hm⟩⟩
        change (s.setViewControllers 0 _).SameRoot _ s.root
          a.window.rootViewController
        rw [hroot, haroot]
        exact ⟨.intro, List.getElem?_set_self hlt, hintro⟩
      · simp only [Navigation.stateChanged, AppRoot.stateChanged,
          Navigation.showIntro, Router.showIntro, hnone, hanone,
          Bool.false_eq_true, if_false]
        exact ⟨h.root, h.blocks, Or.inr ⟨hnone, hanone, hc⟩⟩

theorem Mirrors.block (h : s.Mirrors a) (hsound : s.Sound)
    (hs : s.handle .block = some s') :
    ∃ a', a.handle .block = some a' ∧ s'.Mirrors a' := by
  simp only [Navigation.handle] at hs
  split at hs
  · cases hs
  · next r rest hr =>
      obtain rfl := Option.some.inj hs
      have hlength := h.blocks
      rw [hr] at hlength
      obtain ⟨router, blocks, ha⟩ : ∃ router blocks,
          a.blocks = router :: blocks :=
        List.exists_cons_of_length_eq_add_one hlength.symm
      have hmem : r ∈ s.blocks := by
        rw [hr]
        exact List.mem_cons_self
      have hnone := hsound.splash_logOut hmem
      have hcontent : a.splashRouter.navigationController = none ∧
          a.contentRouter ≠ none := by
        rcases h.splash with ⟨-, hzero, -⟩ | ⟨-, hcontent⟩
        · cases hzero.symm.trans (hsound.opened hmem)
        · exact hcontent
      refine ⟨{ a with window := (router.logOut a.window).2, blocks := blocks },
        by rw [AppRoot.handle, ha], ⟨.intro, ?_,
          holds_logOut (hsound.blocks r hmem).2⟩, ?_,
        Or.inr ⟨hnone, hcontent⟩⟩
      · simp [Router.logOut, AppWindow.create, AppWindow.setViewControllers,
          AppWindow.changeRootViewController]
      · rw [ha] at hlength
        exact Nat.succ.inj hlength

theorem Mirrors.logOut (h : s.Mirrors a) (hsound : s.Sound)
    {signedOut : Bool}
    (hs : s.handle (.tapped (.logOut signedOut)) = some s') :
    ∃ a', a.handle (.logOut signedOut) = some a' ∧ s'.Mirrors a' := by
  obtain ⟨top, htop, hs⟩ := Option.bind_eq_some_iff.mp hs
  obtain ⟨hkeeps, hblocks, habout⟩ := hsound.tapped_spec htop hs
  obtain ⟨hnone, -, -⟩ := hsound.aboutUs htop (habout signedOut rfl)
  have hcontent : a.contentRouter ≠ none := by
    rcases h.splash with ⟨-, hzero, -⟩ | ⟨-, -, hcontent⟩
    · cases hzero.symm.trans hnone
    · exact hcontent
  obtain ⟨router, hrouter⟩ := Option.ne_none_iff_exists'.mp hcontent
  cases signedOut with
  | false =>
      rw [queued, List.append_nil] at hblocks
      · refine ⟨a, by rw [AppRoot.handle, AppRoot.logOut, hrouter]; rfl, ?_⟩
        exact h.of_keeps hkeeps (hblocks ▸ h.blocks)
      · nofun
  | true =>
      refine ⟨{ a with blocks := a.blocks ++ [router] },
        by rw [AppRoot.handle, AppRoot.logOut, hrouter]; rfl, ?_⟩
      refine h.of_keeps hkeeps ?_
      rw [hblocks, queued, List.length_append, List.length_append, h.blocks]
      rfl

/-- Any other tap is a tap on what has been pushed. -/
theorem Mirrors.tapped (h : s.Mirrors a) (hsound : s.Sound) {t : Tap}
    (ht : ∀ signedOut, t ≠ .logOut signedOut)
    (hs : s.handle (.tapped t) = some s') : s'.Mirrors a := by
  obtain ⟨top, htop, hs⟩ := Option.bind_eq_some_iff.mp hs
  obtain ⟨hkeeps, hblocks, -⟩ := hsound.tapped_spec htop hs
  rw [queued, List.append_nil] at hblocks
  · exact h.of_keeps hkeeps (hblocks ▸ h.blocks)
  · exact ht true

theorem Mirrors.tabBar (h : s.Mirrors a) {viewControllers : List ℕ}
    {selectedIndex : ℕ}
    (hroot : s.root = .tabBarController viewControllers selectedIndex)
    {root : Root} (hroot' : s'.root = root)
    (htab : ∃ l i, root = .tabBarController l i)
    (hblocks : s'.blocks = s.blocks)
    (hzero : s'.navigationController 0 = s.navigationController 0) :
    s'.Mirrors a := by
  obtain ⟨l, i, rfl⟩ := htab
  have hsame := h.root
  rw [hroot] at hsame
  refine ⟨?_, by rw [hblocks, h.blocks], ?_⟩
  · rw [hroot']
    cases hwindow : a.window.rootViewController with
    | navigationController m =>
        rw [hwindow] at hsame
        exact hsame.elim
    | tabBarController => trivial
  · rcases h.splash with ⟨hnav, -⟩ | hafter
    · rw [hroot] at hnav
      cases hnav
    · rw [hzero]
      exact Or.inr hafter

theorem Sound.tabs_zero (h : s.Sound) :
    s.tabs.navigationController 0 = s.navigationController 0 :=
  navigationController_append h.exists_router

/-- The events `AppRoot` does not have change nothing it shows. -/
theorem Mirrors.of_auth?_eq_none {e : NavigationEvent} (h : s.Mirrors a)
    (hsound : s.Sound) (hs : s.handle e = some s') (he : e.auth? = none) :
    s'.Mirrors a := by
  cases e with
  | stateChanged user => cases he
  | block => cases he
  | tabBarAppeared =>
      simp only [Navigation.handle] at hs
      split at hs
      · next hroot =>
          obtain rfl := Option.some.inj hs
          exact h.tabBar hroot rfl ⟨_, _, rfl⟩ rfl hsound.tabs_zero
      · cases hs
  | tabSelected index =>
      simp only [Navigation.handle] at hs
      split at hs
      · next hroot =>
          split at hs
          · obtain rfl := Option.some.inj hs
            exact h.tabBar hroot rfl ⟨_, _, rfl⟩ rfl rfl
          · cases hs
      · cases hs
  | tapped t =>
      refine h.tapped hsound (fun signedOut ht => ?_) hs
      subst ht
      cases he

/-- The others are handled by both. -/
theorem Mirrors.of_auth?_eq_some {e : NavigationEvent} {auth : AuthEvent}
    (h : s.Mirrors a) (hsound : s.Sound) (hs : s.handle e = some s')
    (he : e.auth? = some auth) :
    ∃ a', a.handle auth = some a' ∧ s'.Mirrors a' := by
  cases e with
  | stateChanged user =>
      obtain rfl := Option.some.inj he
      obtain rfl := Option.some.inj hs
      exact ⟨_, rfl, h.stateChanged hsound user⟩
  | block =>
      obtain rfl := Option.some.inj he
      exact h.block hsound hs
  | tapped t =>
      cases t with
      | logOut signedOut =>
          obtain rfl := Option.some.inj he
          exact h.logOut hsound hs
      | _ => cases he
  | tabBarAppeared | tabSelected => cases he

end Root

/-- Whatever is pushed and popped, and whichever tab is selected: what the
window shows at its root, the splash screen or the intro or the tabs, is what
`AppRoot` shows for the notifications and the log-outs alone, and none of these
is lost on it. -/
theorem mirrors_of_play {colorScheme : Option String}
    {l : List NavigationEvent} {s : Navigation}
    (h : play handle (fun _ _ => True) l (start colorScheme) = some s) :
    ∃ a, play AppRoot.handle (fun _ _ => True)
        (l.filterMap NavigationEvent.auth?) AppRoot.start = some a ∧
      s.Mirrors a := by
  obtain ⟨a, ha, hmirrors, -⟩ := play_filterMap
    (R := fun s a => Mirrors s a ∧ s.Sound) NavigationEvent.auth?
    (fun s e s' a hR hs he =>
      ⟨hR.1.of_auth?_eq_none hR.2 hs he, hR.2.handle hs⟩)
    (fun s e s' a auth hR hs he => by
      obtain ⟨a', ha', hmirrors⟩ := hR.1.of_auth?_eq_some hR.2 hs he
      exact ⟨a', ha', hmirrors, hR.2.handle hs⟩)
    ⟨mirrors_start colorScheme, sound_start colorScheme⟩ h
  exact ⟨a, ha, hmirrors⟩

/-- Two screens are pushed and a tab is selected before the log-out. -/
theorem mirrors_of_play_again : ∃ s a,
    play handle (fun _ _ => True)
      [.tapped .back, .stateChanged true, .tabSelected 0, .tapped .showAboutUs,
        .tapped (.logOut true), .tapped .showOrders, .tabBarAppeared, .block,
        .tapped .openSignUp] (start (some "dark")) = some s ∧
      play AppRoot.handle (fun _ _ => True)
        [.stateChanged true, .logOut true, .block] AppRoot.start = some a ∧
      s.Mirrors a := by
  obtain ⟨s, hs⟩ := Option.isSome_iff_exists.mp (show (play handle
    (fun _ _ => True) [.tapped .back, .stateChanged true, .tabSelected 0,
      .tapped .showAboutUs, .tapped (.logOut true), .tapped .showOrders,
      .tabBarAppeared, .block, .tapped .openSignUp]
    (start (some "dark"))).isSome by decide +kernel)
  obtain ⟨a, ha, hmirrors⟩ := mirrors_of_play hs
  exact ⟨s, a, hs, ha, hmirrors⟩

end Navigation

end PhoRent
