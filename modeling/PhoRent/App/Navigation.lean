import PhoRent.App.Catalog
import PhoRent.App.Router

/-!
# Getting about in the app

What `Router` leaves out: the screens that are pushed on top of the first one,
the three tabs, and the buttons. Every screen has a presenter, and the presenter
has a router. Whether a button does anything depends on the router alone: it
pushes onto the navigation controller it holds, if it holds one, and nothing
says that this is the one the screen is in.

Routers and navigation controllers are objects, numbered as they are created.
Router 0 is the splash screen's. A tap is a tap on the top screen of what is on
display.
-/

namespace PhoRent

inductive Screen
  | splashScreen
  | intro
  | login
  | signUp
  | passwordDrop
  | personal
  | aboutUs
  | orders
  | mainSearch
  | category (category : Category)
  | basket
  deriving DecidableEq, Repr

/-- A view controller: what it shows, and the router its presenter has. -/
structure Controller where
  screen : Screen
  router : ℕ
  deriving DecidableEq, Repr

/-- `viewControllers` of a tab bar are navigation controllers. -/
inductive Root
  | navigationController (n : ℕ)
  | tabBarController (viewControllers : List ℕ) (selectedIndex : ℕ)
  deriving DecidableEq, Repr

/-- The buttons, under the names of the presenters' methods, and the way
back. -/
inductive Tap
  | openSignUp
  | openSignIn
  | openPasswordDrop
  | pop
  | showAboutUs
  | showOrders
  | logOut (signedOut : Bool)
  | changeSchemeColor
  | cellPicked (category : Category)
  -- `navigationController?.popViewController`
  | back
  deriving DecidableEq, Repr

/-- What `AuthEvent` has, and what the user does. `tabBarAppeared` is
`viewWillAppear` of a tab bar that has been covered. -/
inductive NavigationEvent
  | stateChanged (user : Bool)
  | block
  | tabBarAppeared
  | tabSelected (index : ℕ)
  | tapped (tap : Tap)
  deriving DecidableEq, Repr

/-- The window's root; for each navigation controller its view controllers, for
each router its navigation controller; the routers of the blocks that will log
out; the style of the window and the one saved. -/
structure Navigation where
  root : Root
  controllers : List (List Controller)
  routers : List (Option ℕ)
  blocks : List ℕ
  dark : Bool
  colorScheme : Option String
  deriving DecidableEq, Repr

namespace Navigation

variable (self : Navigation)

def navigationController (router : ℕ) : Option ℕ :=
  (self.routers[router]?).join

def visible : Option ℕ :=
  match self.root with
  | .navigationController n => some n
  | .tabBarController viewControllers selectedIndex =>
      viewControllers[selectedIndex]?

def shown : List Controller :=
  (self.visible.bind fun n => self.controllers[n]?).getD []

def setViewControllers (n : ℕ) (viewControllers : List Controller) :
    Navigation :=
  { self with controllers := self.controllers.set n viewControllers }

def create (router : ℕ) (viewControllers : List Controller) : Navigation :=
  { self with
    controllers := self.controllers ++ [viewControllers]
    routers := self.routers.set router (some self.controllers.length) }

/-! ## `Router` -/

/-- `assemblyBuilder` makes the module, and it is pushed. -/
def push (router : ℕ) (screen : Screen) : Navigation :=
  match self.navigationController router with
  | some n =>
      { self with
        controllers := self.controllers.modify n (· ++ [⟨screen, router⟩]) }
  | none => self

def showLogin (router : ℕ) : Navigation := self.push router .login

def showSignUp (router : ℕ) : Navigation := self.push router .signUp

def showPasswordDrop (router : ℕ) : Navigation := self.push router .passwordDrop

def showAboutUs (router : ℕ) : Navigation := self.push router .aboutUs

def showOrders (router : ℕ) : Navigation := self.push router .orders

def showCategoryPage (router : ℕ) (category : Category) : Navigation :=
  self.push router (.category category)

def popToRoot (router : ℕ) : Navigation :=
  match self.navigationController router with
  | some n =>
      { self with controllers := self.controllers.modify n (List.take 1) }
  | none => self

def showIntro (router : ℕ) : Navigation :=
  match self.navigationController router with
  | some n => self.setViewControllers n [⟨.intro, router⟩]
  | none => self

def destroyInitialModule (router : ℕ) : Navigation :=
  { self with routers := self.routers.set router none }

/-- `viewWillAppear` of `TabBarController`: a navigation controller and a router
for each tab, all new. -/
def tabs : Navigation :=
  let n := self.controllers.length
  let r := self.routers.length
  { self with
    controllers := self.controllers ++
      [[⟨.personal, r⟩], [⟨.mainSearch, r + 1⟩], [⟨.basket, r + 2⟩]]
    routers := self.routers ++ [some n, some (n + 1), some (n + 2)]
    root := .tabBarController [n, n + 1, n + 2] 1 }

/-- `openContent` of the scene shows a new tab bar. -/
def showContent (router : ℕ) : Navigation :=
  (self.destroyInitialModule router).tabs

def logOut (router : ℕ) : Navigation :=
  let self := self.destroyInitialModule router
  let n := self.controllers.length
  { self.create router [⟨.intro, router⟩] with root := .navigationController n }

/-- `changeSchemeColor` of the scene, with what `DataManager` saves. -/
def changeSchemeColor : Navigation :=
  if self.dark then { self with dark := false, colorScheme := some "light" }
  else { self with dark := true, colorScheme := some "dark" }

/-! ## The scene and its events -/

def start (colorScheme : Option String) : Navigation where
  root := .navigationController 0
  controllers := [[⟨.splashScreen, 0⟩]]
  routers := [some 0]
  blocks := []
  dark := colorScheme = some "dark"
  colorScheme := colorScheme

/-- `popViewController` on the navigation controller on display. The first view
controller stays. -/
def popViewController : Navigation :=
  match self.visible with
  | some n =>
      { self with
        controllers := self.controllers.modify n fun stack =>
          stack.take (max 1 (stack.length - 1)) }
  | none => self

/-- A tap on a screen whose presenter has the router. There is no next state
where the screen has no such button. -/
def tap (router : ℕ) : Screen → Tap → Option Navigation
  | .intro, .openSignUp => some (self.showSignUp router)
  | .intro, .openSignIn => some (self.showLogin router)
  | .login, .openPasswordDrop => some (self.showPasswordDrop router)
  | .login, .pop | .signUp, .pop | .passwordDrop, .pop | .category _, .pop =>
      some (self.popToRoot router)
  | .personal, .showAboutUs => some (self.showAboutUs router)
  | .aboutUs, .showOrders => some (self.showOrders router)
  | .aboutUs, .changeSchemeColor => some self.changeSchemeColor
  -- the router goes on in a block on the main queue
  | .aboutUs, .logOut signedOut =>
      some (if signedOut then { self with blocks := self.blocks ++ [router] }
        else self)
  | .mainSearch, .cellPicked category =>
      some (self.showCategoryPage router category)
  | _, .back => some self.popViewController
  | _, _ => none

/-- The splash screen's listener goes to router 0. -/
def stateChanged (user : Bool) : Navigation :=
  if user then self.showContent 0 else self.showIntro 0

def handle : NavigationEvent → Option Navigation
  | .stateChanged user => some (self.stateChanged user)
  | .block =>
      match self.blocks with
      | [] => none
      | router :: blocks => some { self.logOut router with blocks := blocks }
  | .tabBarAppeared =>
      match self.root with
      | .tabBarController _ _ => some self.tabs
      | .navigationController _ => none
  | .tabSelected index =>
      match self.root with
      | .tabBarController viewControllers _ =>
          if index < viewControllers.length then
            some { self with root := .tabBarController viewControllers index }
          else none
      | .navigationController _ => none
  | .tapped tap =>
      self.shown.getLast?.bind fun top => self.tap top.router top.screen tap

end Navigation

end PhoRent
