import PhoRent.App.Completions
import PhoRent.App.SignUpView
import PhoRent.Lib.Machine

/-!
# The forms: signing in, signing up, and a new password

Each view looks at what is in its fields, and shows an alert of its own or
calls its presenter. The three presenters are alike: without a network there is
an alert, and otherwise a loading alert is put in front of the form and a
method of the network service is called. What the view does with the result is
up to the form. The loading alert is only taken away by a view that is told to
do so, and the two that sign somebody in leave that to the success itself:
it replaces the window's root.
-/

namespace PhoRent

namespace LoginViewController

inductive SignInAction
  | signInUser (email password : String)
  | showAlert
  deriving DecidableEq, Repr

def signIn (email password : String) : SignInAction :=
  if email ≠ "" ∧ password ≠ "" then .signInUser email password
  else .showAlert

end LoginViewController

namespace PasswordDropViewController

def trimmingCharacters (p : Char → Bool) (s : String) : String :=
  .ofList ((s.toList.dropWhile p).reverse.dropWhile p).reverse

/-- The literal is that of `SignUpViewController`. -/
def isValidEmail (email : String) : Bool :=
  Regex.matchesWhole email.toList SignUpViewController.emailRegEx

inductive DropAction
  | passwordDrop (email : Option String)
  | showWrongFormat
  deriving DecidableEq, Repr

def dropPassword (text : Option String) : DropAction :=
  let email := text.map (trimmingCharacters Unicode.blank)
  if isValidEmail (email.getD "") then .passwordDrop email
  else .showWrongFormat

end PasswordDropViewController

/-! ## The screens -/

/-- What is shown on top of a form. -/
inductive FormAlert
  | showAlertLoading
  | closeAlertLoading
  | showNoInternetConnection
  | showAuthError
  | showErrorAlert
  | showAlert
  | showWrongFormat
  | validationError
  deriving DecidableEq, Repr

inductive FormInput
  | signIn (email password : String)
  | signUp (username email password : String)
  | passwordDrop (text : Option String)
  deriving DecidableEq, Repr

/-- The view's own alert, or the call it asks its presenter for. -/
def FormInput.submit : FormInput → FormAlert ⊕ NetCall
  | .signIn email password =>
      match LoginViewController.signIn email password with
      | .signInUser email password => .inr (.signIn email password)
      | .showAlert => .inl .showAlert
  | .signUp username email password =>
      match SignUpViewController.signUp username email password with
      | .validationError => .inl .validationError
      | .signUpUser username email password =>
          .inr (.signUp username email password)
      | .showAlert => .inl .showAlert
  | .passwordDrop text =>
      match PasswordDropViewController.dropPassword text with
      | .passwordDrop email => .inr (.passwordDrop email)
      | .showWrongFormat => .inl .showWrongFormat

/-- `success()` and `failure(error:)` of the three views. -/
def NetCall.alerts : NetCall → Completion → List FormAlert
  | .signIn _ _, .failure _ | .signUp _ _ _, .failure _ =>
      [.closeAlertLoading, .showAuthError]
  | .passwordDrop _, .failure _ => [.closeAlertLoading, .showErrorAlert]
  | .passwordDrop _, .message _ => [.closeAlertLoading, .showAuthError]
  | _, _ => []

/-- The requests in flight, each with the call it belongs to, and all that has
been shown so far. -/
structure FormScreen where
  inFlight : List (NetCall × NetOp)
  shown : List FormAlert

inductive FormEvent
  | submitted (input : FormInput) (isConnectedToNetwork : Bool)
  | answered (k : ℕ) (reply : Reply) (currentUser : Option String)

namespace FormScreen

def start : FormScreen := ⟨[], []⟩

variable (self : FormScreen)

/-- A call of the presenter. What a method sends off does not depend on the
user: these three are for nobody signed in. -/
def present (call : NetCall) (isConnectedToNetwork : Bool) : FormScreen :=
  if isConnectedToNetwork then
    { self with
      inFlight := self.inFlight ++
        (call.method none).ops.map fun op => (call, op)
      shown := self.shown ++ [.showAlertLoading] }
  else { self with shown := self.shown ++ [.showNoInternetConnection] }

def handle : FormEvent → Option FormScreen
  | .submitted input isConnectedToNetwork =>
      match input.submit with
      | .inl alert => some { self with shown := self.shown ++ [alert] }
      | .inr call => some (self.present call isConnectedToNetwork)
  | .answered k reply currentUser =>
      self.inFlight[k]?.map fun (call, op) =>
        let (ops, outs) := (call.method currentUser).answer op reply
        { self with
          inFlight := self.inFlight.eraseIdx k ++ ops.map fun op => (call, op)
          shown := self.shown ++ outs.flatMap call.alerts }

end FormScreen

end PhoRent
