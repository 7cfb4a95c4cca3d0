import PhoRent.Lib.Regex
import PhoRent.Lib.Unicode

/-!
# `SignUpViewController`: what is checked before signing up

Email and password are each held against a regular expression with
`SELF MATCHES`, which asks for the whole string. The patterns below are the
literals of the source, atom by atom: a class is the list of what is between
its brackets, repetitions included.
-/

namespace PhoRent

namespace SignUpViewController

open Regex Regex.Pattern

def range (lower upper c : Char) : Bool :=
  decide (lower ≤ c) && decide (c ≤ upper)

/-- The ends of a line, which `.` does not match. -/
def lineTerminators : List Char :=
  ['\n', '\u000b', '\u000c', '\r', '\u0085', '\u2028', '\u2029']

def dot (c : Char) : Bool := !lineTerminators.contains c

/-- `(?=.*[…])`. -/
def lookAhead (p : Char → Bool) : Pattern Char :=
  ahead (seq (star (one dot)) (one p))

/-- `[_d$@$!%*?&#]`. -/
def symbolClass (c : Char) : Bool :=
  ['_', 'd', '$', '@', '$', '!', '%', '*', '?', '&', '#'].contains c

/-- `[A-Za-z\dd$@$!%*?&_#]`. -/
def passwordClass (c : Char) : Bool :=
  range 'A' 'Z' c || range 'a' 'z' c || Unicode.decimalDigit c ||
    ['d', '$', '@', '$', '!', '%', '*', '?', '&', '_', '#'].contains c

/-- `^(?=.*[a-z])(?=.*[A-Z])(?=.*\d)(?=.*[_d$@$!%*?&#])`, and then the class
of a password `{8,}`. -/
def passwRegEx : Pattern Char :=
  seq start
    (seq (lookAhead (range 'a' 'z'))
      (seq (lookAhead (range 'A' 'Z'))
        (seq (lookAhead Unicode.decimalDigit)
          (seq (lookAhead symbolClass) (atLeast 8 (one passwordClass))))))

def isValidPassword (password : String) : Bool :=
  matchesWhole password.toList passwRegEx

/-- `[A-Z0-9a-z._%+-]+@[A-Za-z0-9.-]+\.[A-Za-z]`, the last `{2,64}`. -/
def emailRegEx : Pattern Char :=
  seq (atLeast 1 (one fun c =>
      range 'A' 'Z' c || range '0' '9' c || range 'a' 'z' c ||
        ['.', '_', '%', '+', '-'].contains c))
    (seq (one (· == '@'))
      (seq (atLeast 1 (one fun c =>
          range 'A' 'Z' c || range 'a' 'z' c || range '0' '9' c ||
            ['.', '-'].contains c))
        (seq (one (· == '.'))
          (between 2 62 (one fun c => range 'A' 'Z' c || range 'a' 'z' c)))))

def isValidEmail (email : String) : Bool :=
  matchesWhole email.toList emailRegEx

def validation (email password : String) : Bool :=
  isValidEmail email && isValidPassword password

/-- What `signUp` of the view ends in: an alert, or a call of the
presenter. -/
inductive SignUpAction
  | validationError
  | signUpUser (username email password : String)
  | showAlert
  deriving DecidableEq, Repr

def signUp (username email password : String) : SignUpAction :=
  if validation email password then
    if username ≠ "" ∧ email ≠ "" ∧ password ≠ "" then
      .signUpUser username email password
    else .showAlert
  else .validationError

end SignUpViewController

end PhoRent
