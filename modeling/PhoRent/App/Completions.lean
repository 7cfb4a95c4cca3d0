import PhoRent.App.NetworkService
import PhoRent.Lib.Requests

/-!
# `NetworkService`: the methods and their completions

Each method here sends one or more operations to the backend and is given a
completion to call. How an operation is answered is the backend's business: it
succeeds, with the document read where it reads one, or it fails with an error
of some domain. Errors of the callables are only passed on when the domain is
that of Firebase Functions.

A method that needs the user does nothing at all without one: the guard comes
first.
-/

namespace PhoRent

structure NSError where
  domain : String
  deriving DecidableEq, Repr

def FunctionsErrorDomain : String := "com.firebase.functions"

/-- How an operation is answered. `document` is the data of the document read,
if it exists. -/
inductive Reply
  | success (document : Option (List (String × FieldValue)))
  | failure (error : NSError)
  deriving Repr

def Reply.ok : Reply → Bool
  | .success _ => true
  | .failure _ => false

structure PersonalData where
  name : String
  email : String
  phone : Option String
  userID : String
  imageURLString : Option String
  deriving DecidableEq, Repr

structure PreviousItem where
  name : String
  cost : ℤ
  imageURL : String
  manufacturer : String
  deriving DecidableEq, Repr

/-- `data[…]` of a document that may be missing. -/
def field (name : String) (document : Option (List (String × FieldValue))) :
    Option FieldValue :=
  document.bind fun data => data.lookup name

def PersonalData.ofDocument (userID : String)
    (document : Option (List (String × FieldValue))) : PersonalData where
  name := ((field "username" document).bind FieldValue.asString?).getD ""
  email := ((field "email" document).bind FieldValue.asString?).getD ""
  phone := (field "phone" document).bind FieldValue.asString?
  userID := userID
  imageURLString := (field "imageURL" document).bind FieldValue.asString?

def PreviousItem.ofDocument (document : Option (List (String × FieldValue))) :
    PreviousItem where
  name := ((field "name" document).bind FieldValue.asString?).getD ""
  cost := ((field "cost" document).bind FieldValue.asInt?).getD 1000
  imageURL := ((field "imageURL" document).bind FieldValue.asString?).getD ""
  manufacturer :=
    ((field "manufacturer" document).bind FieldValue.asString?).getD ""

/-- What a completion is called with: `Result<…, Error>`. -/
inductive Completion
  | message (text : String)
  | personalData (data : PersonalData)
  | previousItem (item : PreviousItem)
  | failure (error : NSError)
  deriving DecidableEq, Repr

def Completion.isSuccess : Completion → Bool
  | .failure _ => false
  | _ => true

/-- The completions of type `Result<String, Error>`. -/
def Completion.netResult? : Completion → Option NetResult
  | .message text => some (.success text)
  | .personalData _ | .previousItem _ => none
  | .failure _ => some .failure

inductive NetOp
  | signIn (email password : String)
  | createUser (email password : String)
  | setUser (userID username email : String)
  | signOut
  | sendPasswordReset (email : String)
  | getUser (userID : String)
  | updatePhone (userID phone : String)
  | callAddItem (id category : String) (count : ℤ)
  | callDeleteItem (itemID categoryID dbItemID : String)
  | write (userID : String) (w : PutWrite)
  | getItem (categoryID itemID : String)
  deriving DecidableEq, Repr

abbrev NetMethod := Requests.Method NetOp Reply Completion

namespace NetworkService

variable (currentUser : Option String)

/-- A method with a single operation: its error is passed on, its success is
turned into a completion. -/
def oneShot (op : NetOp)
    (done : Option (List (String × FieldValue)) → Completion) : NetMethod where
  ops := [op]
  outs := []
  answer
    | _, .success document => ([], [done document])
    | _, .failure error => ([], [.failure error])

def nothing : NetMethod := ⟨[], [], fun _ _ => ([], [])⟩

def signIn (email password : String) : NetMethod :=
  oneShot (.signIn email password) fun _ => .message "access is success"

def signUp (username email password : String) : NetMethod where
  ops := [.createUser email password]
  outs := []
  answer
    | .createUser _ _, .success _ =>
        match currentUser with
        | some userID => ([.setUser userID username email], [])
        | none => ([], [])
    | _, .success _ => ([], [.message "access is success"])
    | _, .failure error => ([], [.failure error])

/-- `signOut` of the backend answers on the spot, by throwing or not. -/
def signOut : NetMethod := oneShot .signOut fun _ => .message "SignOut"

def passwordDrop : Option String → NetMethod
  | none => nothing
  | some email =>
      if email = "" then nothing
      else oneShot (.sendPasswordReset email) fun _ =>
        .message "access is success"

def getPersonalInfo : NetMethod :=
  match currentUser with
  | none => nothing
  | some userID => oneShot (.getUser userID) fun document =>
      .personalData (.ofDocument userID document)

def setPhone (phone : String) : NetMethod :=
  match currentUser with
  | none => nothing
  | some userID => oneShot (.updatePhone userID phone) fun _ =>
      .message "Phone number has been seted"

/-- A callable: success is reported before anything is known, and afterwards
only errors of the functions' own domain. -/
def callable (op : NetOp) (text : String) : NetMethod where
  ops := [op]
  outs := [.message text]
  answer
    | _, .success _ => ([], [])
    | _, .failure error =>
        ([], if error.domain = FunctionsErrorDomain then [.failure error]
          else [])

def addItemInBasket (itemID categoryID : String) (count : ℤ) : NetMethod :=
  callable (.callAddItem itemID categoryID count)
    "Товар успешно добавлен в корзину!"

def removeFromBasket (itemID dbItemID categoryID : String) : NetMethod :=
  callable (.callDeleteItem itemID categoryID dbItemID)
    "Товар удален из корзины!"

/-- `putOrder` and its completions: the order document reports either way,
the delete of a line only a failure. -/
def putOrderMethod (order : Order) : NetMethod :=
  match currentUser with
  | none => nothing
  | some userID =>
      { ops := (putOrder (some userID) order).map (.write userID)
        outs := []
        answer := fun op reply =>
          match reply with
          | .failure error => ([], [.failure error])
          | .success _ =>
              match op with
              | .write _ (.addDocument _) =>
                  ([], [.message "success write document"])
              | _ => ([], []) }

/-- What `putOrderCompletion` says of a write is what is reported here. -/
theorem putOrderMethod_reports (userID : String) (order : Order)
    (w : PutWrite) (reply : Reply) :
    ((putOrderMethod (some userID) order).answer
      (.write userID w) reply).2.filterMap Completion.netResult? =
      (putOrderCompletion reply.ok w).toList := by
  cases w <;> cases reply <;> rfl

def fillPreviousItem (categoryID itemID : String) : NetMethod :=
  oneShot (.getItem categoryID itemID) fun document =>
    .previousItem (.ofDocument document)

end NetworkService

inductive NetCall
  | signIn (email password : String)
  | signUp (username email password : String)
  | signOut
  | passwordDrop (email : Option String)
  | setPhone (phone : String)
  | getPersonalInfo
  | addItemInBasket (itemID categoryID : String) (count : ℤ)
  | removeFromBasket (itemID dbItemID categoryID : String)
  | putOrder (order : Order)
  | fillPreviousItem (categoryID itemID : String)

def NetCall.method (currentUser : Option String) : NetCall → NetMethod
  | .signIn email password => NetworkService.signIn email password
  | .signUp username email password =>
      NetworkService.signUp currentUser username email password
  | .signOut => NetworkService.signOut
  | .passwordDrop email => NetworkService.passwordDrop email
  | .setPhone phone => NetworkService.setPhone currentUser phone
  | .getPersonalInfo => NetworkService.getPersonalInfo currentUser
  | .addItemInBasket itemID categoryID count =>
      NetworkService.addItemInBasket itemID categoryID count
  | .removeFromBasket itemID dbItemID categoryID =>
      NetworkService.removeFromBasket itemID dbItemID categoryID
  | .putOrder order => NetworkService.putOrderMethod currentUser order
  | .fillPreviousItem categoryID itemID =>
      NetworkService.fillPreviousItem categoryID itemID

end PhoRent
