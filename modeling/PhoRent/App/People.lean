import PhoRent.App.Completions
import PhoRent.App.PersonalView
import PhoRent.App.SignUpView
import PhoRent.Lib.Keyed
import PhoRent.Lib.Machine

/-!
# People: their documents, their pictures and the personal screen

A document `users/{uid}` is set when somebody signs up, and two of its fields
are updated afterwards: the phone number, and where the picture lies. The
personal screen reads the document when it is opened and from then on follows
its own changes; `UserManager` keeps what it knows for as long as the app runs.

A request is carried out first, or fails, and its callback runs later. A
callback finds the presenter that has asked, or it does nothing. The screens are
numbered, and the last is the one that may be there; it holds its presenter.
Whether something else holds the presenter of a screen that is gone is up to the
event: such a presenter still reaches `UserManager`, but no screen. What the
text field of the alert goes through before it is confirmed touches nothing
else, so it is one event.
-/

namespace PhoRent

structure UserDocument where
  username : String
  email : String
  ID : String
  phone : Option String
  imageURL : Option String
  deriving DecidableEq, Repr

namespace UserDocument

/-- `setData` of `signUp`: what was there before is gone. -/
def signUp (userID username email : String) : UserDocument where
  username := username
  email := email
  ID := userID
  phone := none
  imageURL := none

def data (d : UserDocument) : List (String × FieldValue) :=
  [("username", .string d.username), ("email", .string d.email),
    ("ID", .string d.ID)] ++
    (d.phone.map fun phone => ("phone", FieldValue.string phone)).toList ++
    (d.imageURL.map fun url => ("imageURL", FieldValue.string url)).toList

theorem ofDocument_data (d : UserDocument) (userID : String) :
    PersonalData.ofDocument userID (some d.data) =
      ⟨d.username, d.email, d.phone, userID, d.imageURL⟩ := by
  obtain ⟨username, email, ID, phone, imageURL⟩ := d
  cases phone <;> cases imageURL <;>
    simp [PersonalData.ofDocument, data, field, List.lookup_cons,
      FieldValue.asString?]

end UserDocument

/-! ## The screen -/

structure PersonalFields where
  nameLabel : Option String
  emailValueLabel : Option String
  phoneValueLabel : Option String
  alert : Bool
  deriving DecidableEq, Repr

namespace PersonalViewController

def setupUI : PersonalFields := ⟨none, none, none, false⟩

def updateFields (name email phone : String) (_ : PersonalFields) :
    PersonalFields :=
  ⟨some name, some email, some phone, false⟩

def updatePhoneLabel (phone : String) (view : PersonalFields) :
    PersonalFields :=
  { view with phoneValueLabel := some phone }

/-- What is in the text field when the alert is confirmed. An edit can trap. -/
def typed (edits : List PhoneEdit) : Option (Option String) :=
  (Machine.play textField (fun _ _ => True) edits .fresh).map PhoneField.text

end PersonalViewController

/-! ## The requests -/

/-- A request of a presenter: the screen it is for, who was signed in when it
was sent, and the answer once there is one. -/
structure PersonalRequest where
  screen : ℕ
  user : Option String
  call : NetCall
  op : NetOp
  reply : Option Reply

inductive PictureOp
  | putData (userID : String) (data : List UInt8)
  | downloadURL (userID : String)
  | updateImageURL (userID url : String)
  deriving DecidableEq, Repr

inductive PictureReply
  | metadata
  | url (url : String)
  | updated
  | error
  deriving DecidableEq, Repr

structure PictureRequest where
  screen : ℕ
  op : PictureOp
  reply : Option PictureReply
  deriving DecidableEq, Repr

namespace NetworkService

def saveImage (currentUser : Option String) (dataImage : List UInt8) :
    List PictureOp :=
  match currentUser with
  | none => []
  | some userID => [.putData userID dataImage]

def saveImageURL (userID url : String) : List PictureOp :=
  [.updateImageURL userID url]

/-- The callbacks of `saveImage`. The inner one needs the service. -/
def imageSaved (held : Bool) : PictureOp → PictureReply → List PictureOp
  | .putData userID _, .metadata => [.downloadURL userID]
  | .downloadURL userID, .url url =>
      if held then saveImageURL userID url else []
  | _, _ => []

end NetworkService

/-! ## All of it -/

/-- The documents, the pictures under `images/`, and the URLs Storage has
handed out, each for a picture; who is signed in on the device, and what
`UserManager` has; the personal screen, if there is one. -/
structure People where
  users : Keyed.Coll String UserDocument
  images : Keyed.Coll String (List UInt8)
  urls : List (String × String)
  currentUser : Option String
  shared : Option PersonalData
  view : Option PersonalFields
  screens : ℕ
  requests : List PersonalRequest
  pictures : List PictureRequest

inductive PeopleEvent
  -- the sign-up form is submitted, and both steps of it succeed
  | registered (userID username email password : String)
  | session (user : Option String)
  | loggedOut
  | opened
  | appeared
  | released
  | confirmed (edits : List PersonalViewController.PhoneEdit)
  | picked (dataImage : List UInt8)
  | answered (k : ℕ) (error : Option NSError)
  -- `held`: the presenter, or the service, of a screen that is gone is there
  | called (k : ℕ) (held : Bool)
  | pictureAnswered (k : ℕ) (url : Option String)
  | pictureCalled (k : ℕ) (held : Bool)

namespace People

def start : People := ⟨.empty, .empty, [], none, none, none, 0, [], []⟩

variable (s : People)

/-- This screen is the one that is there. -/
def onScreen (screen : ℕ) : Bool := s.view.isSome && screen == s.screens

def send (call : NetCall) : People :=
  { s with
    requests := s.requests ++ (call.method s.currentUser).ops.map fun op =>
      ⟨s.screens, s.currentUser, call, op, none⟩ }

def setInfo : People := s.send .getPersonalInfo

def setPhone (phone : String) : People := s.send (.setPhone phone)

def viewWillAppear : People :=
  { s with
    view := s.view.map fun view =>
      { view with alert := view.alert || s.shared.isNone } }

def completed (call : NetCall) (completion : Completion) : People :=
  match call, completion with
  | .getPersonalInfo, .personalData data =>
      { s with
        shared := some data
        view := s.view.map (PersonalViewController.updateFields data.name
          data.email (data.phone.getD "")) }
  | .setPhone phone, .message _ =>
      { s with
        shared := s.shared.map fun data => { data with phone := some phone }
        view := s.view.map (PersonalViewController.updatePhoneLabel phone) }
  | _, _ => s

def completedAll (call : NetCall) : List Completion → People → People
  | [], s => s
  | completion :: rest, s => completedAll call rest (s.completed call completion)

/-- Firestore carries out a request. `updateData` wants the document to be
there. -/
def perform : NetOp → Option (Reply × People)
  | .getUser userID =>
      some (.success ((s.users.get userID).map UserDocument.data), s)
  | .updatePhone userID phone =>
      (s.users.get userID).map fun d =>
        (.success none,
          { s with users := s.users.put userID { d with phone := some phone } })
  | _ => none

def performPicture (url : String) : PictureOp → Option (PictureReply × People)
  | .putData userID data =>
      some (.metadata, { s with images := s.images.put userID data })
  | .downloadURL userID =>
      if (s.images.get userID).isSome then
        some (.url url, { s with urls := s.urls ++ [(userID, url)] })
      else none
  | .updateImageURL userID url' =>
      (s.users.get userID).map fun d =>
        (.updated,
          { s with users := s.users.put userID { d with imageURL := some url' } })

def answer (op : NetOp) : Option NSError → Option (Reply × People)
  | none => s.perform op
  | some error => some (.failure error, s)

def answerPicture (op : PictureOp) :
    Option String → Option (PictureReply × People)
  | some url => s.performPicture url op
  | none => some (.error, s)

/-- The alert with the text field is confirmed. -/
def checkPhone (phone : Option String) : People :=
  match PersonalPresenter.checkPhone phone with
  | some (.setPhone phone) => s.setPhone phone
  | some .showErrorAlert | none => s

/-- The user can get at the screen: it is there, with nothing in front. -/
def usable : Bool := s.view.any fun view => !view.alert

def handle : PeopleEvent → Option People
  | .registered userID username email password =>
      match SignUpViewController.signUp username email password with
      | .signUpUser username email _ =>
          let d := UserDocument.signUp userID username email
          some { s with users := s.users.put userID d }
      | _ => none
  | .session user => some { s with currentUser := user }
  | .loggedOut => some { s with currentUser := none, shared := none }
  | .opened =>
      let opened := { s with
        view := some PersonalViewController.setupUI
        screens := s.screens + 1 }
      some opened.setInfo.viewWillAppear
  | .appeared => some s.viewWillAppear
  | .released => some { s with view := none }
  | .confirmed edits =>
      if s.usable then
        (PersonalViewController.typed edits).map s.checkPhone
      else none
  | .picked dataImage =>
      if s.usable then
        let ops := NetworkService.saveImage s.currentUser dataImage
        some { s with
          pictures := s.pictures ++ ops.map fun op => ⟨s.screens, op, none⟩ }
      else none
  | .answered k error =>
      s.requests[k]?.bind fun r =>
        if r.reply.isSome then none
        else (s.answer r.op error).map fun (reply, s) =>
          { s with requests := s.requests.set k { r with reply := some reply } }
  | .called k held =>
      s.requests[k]?.bind fun r => r.reply.map fun reply =>
        let called := { s with requests := s.requests.eraseIdx k }
        let completed := completedAll r.call
          ((r.call.method r.user).answer r.op reply).2 called
        if s.onScreen r.screen then completed
        else if held then { completed with view := called.view }
        else called
  | .pictureAnswered k url =>
      s.pictures[k]?.bind fun r =>
        if r.reply.isSome then none
        else (s.answerPicture r.op url).map fun (reply, s) =>
          { s with pictures := s.pictures.set k { r with reply := some reply } }
  | .pictureCalled k held =>
      s.pictures[k]?.bind fun r => r.reply.map fun reply =>
        let ops :=
          NetworkService.imageSaved (s.onScreen r.screen || held) r.op reply
        { s with
          pictures := s.pictures.eraseIdx k ++
            ops.map fun op => ⟨r.screen, op, none⟩ }

end People

end PhoRent
