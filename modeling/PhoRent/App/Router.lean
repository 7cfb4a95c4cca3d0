import Mathlib.Data.Nat.Notation
import PhoRent.Lib.Machine

/-!
# `Router` and the root of the window

The window shows a navigation controller with the splash screen or the intro,
or the tab bar with the content. The splash screen listens to the state of the
authentication for as long as the app runs, and drives the router it was
created with. Logging out is started inside the content, whose screens have
routers of their own, and goes on in a block on the main queue.

A router holds a navigation controller, or none any more. Navigation
controllers are objects; here they are numbered as they are created, and
`controllers` has the view controllers of each.
-/

namespace PhoRent

inductive ViewController
  | splashScreen
  | intro
  | personal
  deriving DecidableEq, Repr

inductive RootViewController
  | navigationController (n : ℕ)
  | tabBarController
  deriving DecidableEq, Repr

structure Router where
  navigationController : Option ℕ
  deriving DecidableEq, Repr

/-- The window's root, and the navigation controllers created so far. -/
structure AppWindow where
  rootViewController : RootViewController
  controllers : List (List ViewController)
  deriving DecidableEq, Repr

namespace AppWindow

variable (self : AppWindow)

def create (viewControllers : List ViewController) : ℕ × AppWindow :=
  (self.controllers.length, { self with controllers := self.controllers ++ [viewControllers] })

def setViewControllers (n : ℕ) (viewControllers : List ViewController) :
    AppWindow :=
  { self with controllers := self.controllers.set n viewControllers }

/-! ## `SceneDelegate` -/

def changeRootViewController (n : ℕ) : AppWindow :=
  { self with rootViewController := .navigationController n }

/-- A new `TabBarController`. Its first tab comes with a router. -/
def openContent : Router × AppWindow :=
  let (n, self) := self.create [.personal]
  (⟨some n⟩, { self with rootViewController := .tabBarController })

end AppWindow

namespace Router

variable (self : Router) (window : AppWindow)

def initialViewController : AppWindow :=
  match self.navigationController with
  | some n => window.setViewControllers n [.splashScreen]
  | none => window

/-- Without a navigation controller nothing happens. -/
def showIntro : AppWindow :=
  match self.navigationController with
  | some n => window.setViewControllers n [.intro]
  | none => window

def destroyInitialModule (_ : Router) : Router := ⟨none⟩

/-- The router gives its navigation controller up; the second router is that
of the new content. -/
def showContent : Router × Router × AppWindow :=
  (self.destroyInitialModule, window.openContent)

def logOut : Router × AppWindow :=
  let self := self.destroyInitialModule
  let (n, window) := window.create []
  let window := window.changeRootViewController n
  ({ self with navigationController := some n },
    window.setViewControllers n [.intro])

end Router

/-! ## Notifications and log-outs -/

/-- A call of the splash screen's listener, a call of
`AboutUsPresenter.logOut` with what signing out answers, and a block it has
queued. -/
inductive AuthEvent
  | stateChanged (user : Bool)
  | logOut (signedOut : Bool)
  | block
  deriving DecidableEq, Repr

/-- The window, the routers of the splash screen and of the content opened
last, the blocks on the main queue that will log out, each with its router, and
whether the last notification carried a user. -/
structure AppRoot where
  window : AppWindow
  splashRouter : Router
  contentRouter : Option Router
  blocks : List Router
  lastUser : Option Bool
  deriving DecidableEq, Repr

namespace AppRoot

def start : AppRoot :=
  let window : AppWindow := ⟨.navigationController 0, [[]]⟩
  let router : Router := ⟨some 0⟩
  ⟨router.initialViewController window, router, none, [], none⟩

/-- `checkSignedIn` calls the view back, which calls `openContent` or
`openIntro`. -/
def stateChanged (self : AppRoot) (user : Bool) : AppRoot :=
  if user then
    let (splashRouter, contentRouter, window) :=
      self.splashRouter.showContent self.window
    { self with
      window := window
      splashRouter := splashRouter
      contentRouter := some contentRouter
      lastUser := some true }
  else
    { self with
      window := self.splashRouter.showIntro self.window
      lastUser := some false }

/-- `AboutUsPresenter.logOut`. The screen is part of the content, so there is
none before that has been opened. -/
def logOut (self : AppRoot) (signedOut : Bool) : Option AppRoot :=
  self.contentRouter.map fun router =>
    if signedOut then { self with blocks := self.blocks ++ [router] } else self

def handle (self : AppRoot) : AuthEvent → Option AppRoot
  | .stateChanged user => some (self.stateChanged user)
  | .logOut signedOut => self.logOut signedOut
  | .block =>
      match self.blocks with
      | [] => none
      | router :: blocks =>
          some { self with
            window := (router.logOut self.window).2
            blocks := blocks }

end AppRoot

end PhoRent
