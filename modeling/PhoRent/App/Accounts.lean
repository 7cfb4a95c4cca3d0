import PhoRent.App.Completions
import PhoRent.Lib.Keyed
import PhoRent.Lib.Machine

/-!
# Signing up: two systems, one after the other

`signUp` of `NetworkService` has Auth create an account, and the callback has
Firestore write its profile. An operation is carried out first, or fails
without a trace, and some time later its callback runs. Who is signed in is one
variable for all calls: creating an account sets it, and so does everything
else that signs in or out.

Auth draws the uid of an account, a new one each time, and does not give an
email to two of them. Which call made an account is not stored anywhere; it is
kept here to say whose it is.
-/

namespace PhoRent

structure Account where
  uid : String
  email : String
  madeBy : ℕ
  deriving DecidableEq, Repr

/-- The document `users/{uid}` as `signUp` sets it. -/
structure Profile where
  username : String
  email : String
  ID : String
  deriving DecidableEq, Repr

/-- Where a call of `signUp` is: an operation has been sent, or it has been
answered and its callback is to run, or nothing more will happen. -/
inductive SignUpStage
  | sent (op : NetOp)
  | answered (op : NetOp) (reply : Reply)
  | over
  deriving Repr

namespace SignUpStage

def isOver : SignUpStage → Bool
  | .over => true
  | _ => false

def writing : SignUpStage → Bool
  | .sent (.setUser _ _ _) => true
  | _ => false

def created : SignUpStage → Bool
  | .answered (.createUser _ _) (.success _) => true
  | _ => false

/-- What the operations of a step leave the call in. `signUp` sends one at a
time. -/
def after : List NetOp → SignUpStage
  | [] => .over
  | op :: _ => .sent op

end SignUpStage

structure SignUpCall where
  username : String
  email : String
  password : String
  stage : SignUpStage
  called : List Completion
  deriving Repr

namespace SignUpCall

/-- The call is made; what it sends does not depend on the user. -/
def start (username email password : String) : SignUpCall :=
  let method := NetworkService.signUp none username email password
  ⟨username, email, password, .after method.ops, method.outs⟩

def inFlight (call : SignUpCall) : Option NetOp :=
  match call.stage with
  | .sent op => some op
  | _ => none

def answered (call : SignUpCall) (op : NetOp) (reply : Reply) : SignUpCall :=
  { call with stage := .answered op reply }

/-- The callback of the operation answered, under the user it finds. -/
def callback (currentUser : Option String) (call : SignUpCall) :
    Option SignUpCall :=
  match call.stage with
  | .answered op reply =>
      let method := NetworkService.signUp currentUser call.username call.email
        call.password
      let step := method.answer op reply
      some { call with stage := .after step.1, called := call.called ++ step.2 }
  | _ => none

end SignUpCall

structure Accounts where
  accounts : List Account
  users : Keyed.Coll String Profile
  currentUser : Option String
  calls : List SignUpCall

inductive AccountEvent
  | signUp (username email password : String)
  | succeed (k : ℕ) (uid : String)
  | fail (k : ℕ) (error : NSError)
  | callback (k : ℕ)
  | session (user : Option String)
  deriving DecidableEq, Repr

namespace Accounts

def fresh : Accounts := ⟨[], .empty, none, []⟩

variable (s : Accounts)

/-- The operation of call `k` is carried out. `uid` is the one drawn, where an
account is created. -/
def perform (k : ℕ) (uid : String) : NetOp → Option Accounts
  | .createUser email _ =>
      if s.accounts.any fun a => a.uid == uid || a.email == email then none
      else some { s with
        accounts := s.accounts ++ [⟨uid, email, k⟩]
        currentUser := some uid }
  | .setUser userID username email =>
      some { s with users := s.users.put userID ⟨username, email, userID⟩ }
  | _ => none

def setCall (k : ℕ) (call : SignUpCall) : Accounts :=
  { s with calls := s.calls.set k call }

/-- What happens to the two systems and the calls. An event that cannot occur
has no next state. -/
def handle : Accounts → AccountEvent → Option Accounts
  | s, .signUp username email password =>
      some { s with calls := s.calls ++ [.start username email password] }
  | s, .succeed k uid =>
      s.calls[k]?.bind fun call => call.inFlight.bind fun op =>
        (s.perform k uid op).map fun s =>
          s.setCall k (call.answered op (.success none))
  | s, .fail k error =>
      s.calls[k]?.bind fun call => call.inFlight.map fun op =>
        s.setCall k (call.answered op (.failure error))
  | s, .callback k =>
      s.calls[k]?.bind fun call =>
        (call.callback s.currentUser).map (s.setCall k)
  | s, .session user => some { s with currentUser := user }

end Accounts

end PhoRent
