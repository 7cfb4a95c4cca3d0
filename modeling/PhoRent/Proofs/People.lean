import PhoRent.App.People
import PhoRent.Proofs.Addresses
import PhoRent.Proofs.PhoneField

/-!
# What is in a profile, and what is shown of it

Everything in a document `users/{uid}` has come through a check of the app: the
name and the email through the sign-up form, the number through the text field
and the presenter, the URL from Storage. What the screen and `UserManager` have
was read from such a document, or sent to it.

The invariant follows the values on their way: what is stored, what is asked
for, what has been answered, and what is shown.
-/

namespace PhoRent

open Machine SignUpViewController

/-! ## Numbers -/

namespace PersonalViewController

/-- A number as the mask formats it, with all eleven digits. -/
structure Complete (phone : String) : Prop where
  formatted : ∃ number, phone = formattedNumber number
  digits : (digits phone).length = 11

/-- What the presenter sends off is a complete number, however it was typed. -/
theorem complete_of_typed {edits : List PhoneEdit} {text : Option String}
    {phone : String} (htyped : typed edits = some text)
    (hsent : PersonalPresenter.checkPhone text = some (.setPhone phone)) :
    Complete phone := by
  obtain ⟨field, hplay, rfl⟩ := Option.map_eq_some_iff.mp htyped
  obtain ⟨shown, hshown, hform⟩ := text_of_run (play_run hplay)
  have hlength : phone = shown ∧ shown.length = 17 := by
    rw [hshown, PersonalPresenter.checkPhone] at hsent
    split at hsent
    · next hlength =>
        obtain rfl := PersonalPresenter.PhoneAction.setPhone.inj
          (Option.some.inj hsent)
        exact ⟨rfl, hlength⟩
    · cases hsent
  obtain ⟨rfl, hlength⟩ := hlength
  rcases hform with rfl | ⟨number, rfl⟩
  · cases hlength
  · exact ⟨⟨number, rfl⟩, (length_formattedNumber number).mp hlength⟩

end PersonalViewController

open PersonalViewController

/-! ## Values that are in order -/

namespace People

/-- A URL Storage has handed out, for the picture that is there. -/
def HandedOut (s : People) (userID url : String) : Prop :=
  (userID, url) ∈ s.urls ∧ (s.images.get userID).isSome = true

end People

structure UserDocument.Proper (s : People) (userID : String)
    (d : UserDocument) : Prop where
  ID : d.ID = userID
  username : d.username ≠ ""
  email : ∃ a : Address, a.text = d.email
  phone : ∀ phone, d.phone = some phone → Complete phone
  imageURL : ∀ url, d.imageURL = some url → s.HandedOut userID url

/-- Without a document there is an empty email, and no number. -/
structure PersonalData.Proper (data : PersonalData) : Prop where
  email : data.email = "" ∨ ∃ a : Address, a.text = data.email
  phone : ∀ phone, data.phone = some phone → Complete phone

theorem PersonalData.Proper.label {data : PersonalData} (h : data.Proper) :
    data.phone.getD "" = "" ∨ Complete (data.phone.getD "") := by
  cases hphone : data.phone with
  | none => exact .inl rfl
  | some phone => exact .inr (h.phone phone hphone)

structure PersonalFields.Proper (view : PersonalFields) : Prop where
  email : ∀ email, view.emailValueLabel = some email →
    email = "" ∨ ∃ a : Address, a.text = email
  phone : ∀ phone, view.phoneValueLabel = some phone →
    phone = "" ∨ Complete phone

inductive PersonalRequest.Proper : PersonalRequest → Prop
  | setInfo {screen : ℕ} {userID : String} {reply : Option Reply}
      (hreply : ∀ document, reply = some (.success document) →
        (PersonalData.ofDocument userID document).Proper) :
      Proper ⟨screen, some userID, .getPersonalInfo, .getUser userID, reply⟩
  | setPhone {screen : ℕ} {userID phone : String} {reply : Option Reply}
      (hphone : Complete phone) :
      Proper ⟨screen, some userID, .setPhone phone,
        .updatePhone userID phone, reply⟩

/-- What is to be written is a URL that was handed out, and so is the one an
answer has brought. -/
structure PictureRequest.Proper (s : People) (r : PictureRequest) : Prop where
  op : ∀ userID url, r.op = .updateImageURL userID url →
    s.HandedOut userID url
  reply : ∀ userID url, r.op = .downloadURL userID →
    r.reply = some (.url url) → s.HandedOut userID url

namespace People

structure Orderly (s : People) : Prop where
  users : ∀ userID d, s.users.get userID = some d → d.Proper s userID
  requests : ∀ r ∈ s.requests, r.Proper
  pictures : ∀ r ∈ s.pictures, r.Proper s
  shared : ∀ data, s.shared = some data → data.Proper
  view : ∀ view, s.view = some view → view.Proper

section Steps

variable {s s' : People}

/-- What has been handed out stays so. -/
structure Grows (s s' : People) : Prop where
  urls : ∀ e ∈ s.urls, e ∈ s'.urls
  images : ∀ userID, (s.images.get userID).isSome = true →
    (s'.images.get userID).isSome = true

theorem Grows.handedOut (h : Grows s s') {userID url : String}
    (hurl : s.HandedOut userID url) : s'.HandedOut userID url :=
  ⟨h.urls _ hurl.1, h.images _ hurl.2⟩

theorem Grows.document (h : Grows s s') {userID : String} {d : UserDocument}
    (hd : d.Proper s userID) : d.Proper s' userID :=
  { hd with imageURL := fun url hurl => h.handedOut (hd.imageURL url hurl) }

theorem Grows.picture (h : Grows s s') {r : PictureRequest}
    (hr : r.Proper s) : r.Proper s' where
  op userID url hop := h.handedOut (hr.op userID url hop)
  reply userID url hop hreply := h.handedOut (hr.reply userID url hop hreply)

theorem Grows.of_eq (hurls : s'.urls = s.urls)
    (himages : s'.images = s.images) : Grows s s' where
  urls _ he := hurls ▸ he
  images _ hget := himages ▸ hget

/-- After a step everything is as before or in order by itself. -/
theorem Orderly.of_grows (h : Orderly s) (hgrows : Grows s s')
    (husers : ∀ userID d, s'.users.get userID = some d →
      s.users.get userID = some d ∨ d.Proper s' userID)
    (hrequests : ∀ r ∈ s'.requests, r ∈ s.requests ∨ r.Proper)
    (hpictures : ∀ r ∈ s'.pictures, r ∈ s.pictures ∨ r.Proper s')
    (hshared : ∀ data, s'.shared = some data →
      s.shared = some data ∨ data.Proper)
    (hview : ∀ view, s'.view = some view → s.view = some view ∨ view.Proper) :
    Orderly s' where
  users userID d hget :=
    (husers userID d hget).elim (fun hd => hgrows.document (h.users _ _ hd)) id
  requests r hr := (hrequests r hr).elim (h.requests r) id
  pictures r hr :=
    (hpictures r hr).elim (fun hold => hgrows.picture (h.pictures r hold)) id
  shared data hdata := (hshared data hdata).elim (h.shared data) id
  view view hview' := (hview view hview').elim (h.view view) id

theorem Orderly.put (h : Orderly s) {userID : String} {d : UserDocument}
    (hd : d.Proper s userID) :
    Orderly { s with users := s.users.put userID d } := by
  have hgrows : Grows s { s with users := s.users.put userID d } :=
    .of_eq rfl rfl
  refine h.of_grows hgrows (fun userID' d' hget => ?_) (fun _ => Or.inl)
    (fun _ => Or.inl) (fun _ => Or.inl) fun _ => Or.inl
  simp only [Keyed.Coll.get_put] at hget
  split at hget
  · next hsame =>
      obtain rfl := hsame
      obtain rfl := Option.some.inj hget
      exact .inr (hgrows.document hd)
  · exact .inl hget

theorem Orderly.registered (h : Orderly s)
    {userID username email password : String}
    (he : s.handle (.registered userID username email password) = some s') :
    Orderly s' := by
  rw [handle] at he
  by_cases hvalid : validation email password = true
  · rw [signUp_of_validation hvalid] at he
    by_cases hname : username = ""
    · rw [if_pos hname] at he
      cases he
    · rw [if_neg hname] at he
      obtain rfl := Option.some.inj he
      have hemail := (Bool.and_eq_true_iff.mp hvalid).1
      exact h.put
        { ID := rfl
          username := hname
          email := isValidEmail_iff.mp hemail
          phone := nofun
          imageURL := nofun }
  · rw [SignUpViewController.signUp, if_neg hvalid] at he
    cases he

theorem Orderly.send (h : Orderly s) {call : NetCall}
    (hproper : ∀ op ∈ (call.method s.currentUser).ops,
      PersonalRequest.Proper ⟨s.screens, s.currentUser, call, op, none⟩) :
    Orderly (s.send call) := by
  refine h.of_grows (.of_eq rfl rfl) (fun _ _ => Or.inl) (fun r hr => ?_)
    (fun _ => Or.inl) (fun _ => Or.inl) fun _ => Or.inl
  rcases List.mem_append.mp hr with hr | hr
  · exact .inl hr
  · obtain ⟨op, hop, rfl⟩ := List.mem_map.mp hr
    exact .inr (hproper op hop)

theorem Orderly.setInfo (h : Orderly s) : Orderly s.setInfo := by
  refine h.send fun op hop => ?_
  cases huser : s.currentUser with
  | none =>
      rw [huser] at hop
      exact absurd hop List.not_mem_nil
  | some userID =>
      rw [huser] at hop
      obtain rfl := List.mem_singleton.mp hop
      exact .setInfo nofun

theorem Orderly.checkPhone (h : Orderly s) {edits : List PhoneEdit}
    {text : Option String} (htyped : typed edits = some text) :
    Orderly (s.checkPhone text) := by
  cases hcheck : PersonalPresenter.checkPhone text with
  | none =>
      rw [People.checkPhone, hcheck]
      exact h
  | some action =>
      cases action with
      | showErrorAlert =>
          rw [People.checkPhone, hcheck]
          exact h
      | setPhone phone =>
          have hphone := complete_of_typed htyped hcheck
          rw [People.checkPhone, hcheck]
          refine h.send fun op hop => ?_
          cases huser : s.currentUser with
          | none =>
              rw [huser] at hop
              exact absurd hop List.not_mem_nil
          | some userID =>
              rw [huser] at hop
              obtain rfl := List.mem_singleton.mp hop
              exact .setPhone hphone

theorem Orderly.viewWillAppear (h : Orderly s) :
    Orderly s.viewWillAppear := by
  refine h.of_grows (.of_eq rfl rfl) (fun _ _ => Or.inl) (fun _ => Or.inl)
    (fun _ => Or.inl) (fun _ => Or.inl) fun view hview => ?_
  obtain ⟨view', hview', rfl⟩ := Option.map_eq_some_iff.mp hview
  have hproper := h.view view' hview'
  exact .inr ⟨hproper.email, hproper.phone⟩

theorem Orderly.opened (h : Orderly s) (he : s.handle .opened = some s') :
    Orderly s' := by
  obtain rfl := Option.some.inj he
  refine Orderly.viewWillAppear (Orderly.setInfo ?_)
  refine h.of_grows (.of_eq rfl rfl) (fun _ _ => Or.inl) (fun _ => Or.inl)
    (fun _ => Or.inl) (fun _ => Or.inl) fun view hview => ?_
  obtain rfl := Option.some.inj hview
  exact .inr ⟨nofun, nofun⟩

theorem UserDocument.Proper.ofDocument {userID : String}
    (h : ∀ d, s.users.get userID = some d → d.Proper s userID) :
    (PersonalData.ofDocument userID
      ((s.users.get userID).map UserDocument.data)).Proper := by
  cases hget : s.users.get userID with
  | none => exact ⟨.inl rfl, nofun⟩
  | some d =>
      have hd := h d hget
      rw [Option.map_some, UserDocument.ofDocument_data]
      exact ⟨.inr hd.email, hd.phone⟩

theorem Orderly.answer (h : Orderly s) {r : PersonalRequest} (hr : r.Proper)
    {error : Option NSError} {reply : Reply}
    (he : s.answer r.op error = some (reply, s')) :
    Orderly s' ∧ s'.requests = s.requests ∧
      PersonalRequest.Proper { r with reply := some reply } := by
  cases error with
  | some error =>
      obtain ⟨rfl, rfl⟩ := Prod.mk.inj (Option.some.inj he)
      refine ⟨h, rfl, ?_⟩
      cases hr with
      | setInfo _ => exact .setInfo nofun
      | setPhone hphone => exact .setPhone hphone
  | none =>
      cases hr with
      | setInfo _ =>
          obtain ⟨rfl, rfl⟩ := Prod.mk.inj (Option.some.inj he)
          refine ⟨h, rfl, .setInfo fun document hdocument => ?_⟩
          obtain rfl := Reply.success.inj (Option.some.inj hdocument)
          exact UserDocument.Proper.ofDocument fun d => h.users _ d
      | setPhone hphone =>
          obtain ⟨d, hget, heq⟩ := Option.map_eq_some_iff.mp he
          obtain ⟨rfl, rfl⟩ := Prod.mk.inj heq
          have hd := h.users _ d hget
          refine ⟨h.put { hd with phone := fun phone hnew => ?_ }, rfl,
            .setPhone hphone⟩
          obtain rfl := Option.some.inj hnew
          exact hphone

theorem Orderly.answered (h : Orderly s) {k : ℕ} {error : Option NSError}
    (he : s.handle (.answered k error) = some s') : Orderly s' := by
  obtain ⟨r, hk, he⟩ := Option.bind_eq_some_iff.mp he
  split at he
  · cases he
  · obtain ⟨⟨reply, t⟩, hanswer, rfl⟩ := Option.map_eq_some_iff.mp he
    obtain ⟨ht, -, hproper⟩ :=
      h.answer (h.requests r (List.mem_of_getElem? hk)) hanswer
    refine ht.of_grows (.of_eq rfl rfl) (fun _ _ => Or.inl) (fun r' hr' => ?_)
      (fun _ => Or.inl) (fun _ => Or.inl) fun _ => Or.inl
    rcases List.mem_or_eq_of_mem_set hr' with hold | rfl
    · exact .inl hold
    · exact .inr hproper

/-- What is shown and kept after a request of the screen has ended. -/
theorem Orderly.completedAll (h : Orderly s) {r : PersonalRequest}
    {reply : Reply} (hr : PersonalRequest.Proper r)
    (hreply : r.reply = some reply) :
    Orderly (People.completedAll r.call
      ((r.call.method r.user).answer r.op reply).2 s) := by
  cases hr with
  | setInfo hdocument =>
      cases reply with
      | failure error => exact h
      | success document =>
          have hdata := hdocument document hreply
          refine h.of_grows (.of_eq rfl rfl) (fun _ _ => Or.inl)
            (fun _ => Or.inl) (fun _ => Or.inl) (fun data hshared => ?_)
            fun view hview => ?_
          · obtain rfl := Option.some.inj hshared
            exact .inr hdata
          · obtain ⟨_, -, rfl⟩ := Option.map_eq_some_iff.mp hview
            refine .inr ⟨fun email hemail => ?_, fun phone hphone => ?_⟩
            · obtain rfl := Option.some.inj hemail
              exact hdata.email
            · obtain rfl := Option.some.inj hphone
              exact hdata.label
  | setPhone hphone =>
      cases reply with
      | failure error => exact h
      | success document =>
          refine h.of_grows (.of_eq rfl rfl) (fun _ _ => Or.inl)
            (fun _ => Or.inl) (fun _ => Or.inl) (fun data hshared => ?_)
            fun view hview => ?_
          · obtain ⟨data', hdata', rfl⟩ := Option.map_eq_some_iff.mp hshared
            refine .inr ⟨(h.shared data' hdata').email, fun phone hnew => ?_⟩
            obtain rfl := Option.some.inj hnew
            exact hphone
          · obtain ⟨view', hview', rfl⟩ := Option.map_eq_some_iff.mp hview
            refine .inr ⟨(h.view view' hview').email, fun phone hnew => ?_⟩
            obtain rfl := Option.some.inj hnew
            exact .inr hphone

theorem Orderly.called (h : Orderly s) {k : ℕ} {held : Bool}
    (he : s.handle (.called k held) = some s') : Orderly s' := by
  obtain ⟨r, hk, he⟩ := Option.bind_eq_some_iff.mp he
  obtain ⟨reply, hreply, rfl⟩ := Option.map_eq_some_iff.mp he
  have herased : Orderly { s with requests := s.requests.eraseIdx k } :=
    h.of_grows (.of_eq rfl rfl) (fun _ _ => Or.inl)
      (fun r' hr' => .inl (List.mem_of_mem_eraseIdx hr')) (fun _ => Or.inl)
      (fun _ => Or.inl) fun _ => Or.inl
  have hcompleted :=
    herased.completedAll (h.requests r (List.mem_of_getElem? hk)) hreply
  simp only
  split
  · exact hcompleted
  split
  · -- the labels are left alone
    exact hcompleted.of_grows (.of_eq rfl rfl) (fun _ _ => Or.inl)
      (fun _ => Or.inl) (fun _ => Or.inl) (fun _ => Or.inl)
      fun view hview => .inr (h.view view hview)
  · exact herased

theorem Orderly.answerPicture (h : Orderly s) {r : PictureRequest}
    (hr : r.Proper s) {url : Option String} {reply : PictureReply}
    (he : s.answerPicture r.op url = some (reply, s')) :
    Orderly s' ∧ s'.pictures = s.pictures ∧
      PictureRequest.Proper s' { r with reply := some reply } := by
  obtain ⟨screen, op, before⟩ := r
  cases url with
  | none =>
      obtain ⟨rfl, rfl⟩ := Prod.mk.inj (Option.some.inj he)
      exact ⟨h, rfl, hr.op, fun _ _ _ hreply => nomatch hreply⟩
  | some url =>
      cases op with
      | putData userID data =>
          obtain ⟨rfl, rfl⟩ := Prod.mk.inj (Option.some.inj he)
          have hgrows : Grows s
              { s with images := s.images.put userID data } := by
            refine ⟨fun _ => id, fun userID' hget => ?_⟩
            simp only [Keyed.Coll.get_put]
            split
            · rfl
            · exact hget
          refine ⟨?_, rfl, fun _ _ hop => (nomatch hop),
            fun _ _ hop => (nomatch hop)⟩
          exact h.of_grows hgrows (fun _ _ => Or.inl) (fun _ => Or.inl)
            (fun _ => Or.inl) (fun _ => Or.inl) fun _ => Or.inl
      | downloadURL userID =>
          rw [People.answerPicture, performPicture] at he
          split at he
          · next himage =>
              obtain ⟨rfl, rfl⟩ := Prod.mk.inj (Option.some.inj he)
              have hgrows : Grows s
                  { s with urls := s.urls ++ [(userID, url)] } :=
                ⟨fun _ => List.mem_append_left _, fun _ => id⟩
              refine ⟨?_, rfl, fun _ _ hop => (nomatch hop), ?_⟩
              · exact h.of_grows hgrows (fun _ _ => Or.inl) (fun _ => Or.inl)
                  (fun _ => Or.inl) (fun _ => Or.inl) fun _ => Or.inl
              · intro userID' url' hop hreply
                obtain rfl := PictureOp.downloadURL.inj hop
                obtain rfl := PictureReply.url.inj (Option.some.inj hreply)
                exact ⟨List.mem_append_right _ List.mem_cons_self, himage⟩
          · cases he
      | updateImageURL userID url' =>
          obtain ⟨d, hget, heq⟩ := Option.map_eq_some_iff.mp he
          obtain ⟨rfl, rfl⟩ := Prod.mk.inj heq
          have hd := h.users _ d hget
          have hurl := hr.op userID url' rfl
          refine ⟨h.put { hd with imageURL := fun url hnew => ?_ }, rfl, ?_, ?_⟩
          · obtain rfl := Option.some.inj hnew
            exact hurl
          · intro userID'' url'' hop
            obtain ⟨rfl, rfl⟩ := PictureOp.updateImageURL.inj hop
            exact hurl
          · exact fun _ _ hop => nomatch hop

theorem Orderly.pictureAnswered (h : Orderly s) {k : ℕ} {url : Option String}
    (he : s.handle (.pictureAnswered k url) = some s') : Orderly s' := by
  obtain ⟨r, hk, he⟩ := Option.bind_eq_some_iff.mp he
  split at he
  · cases he
  · obtain ⟨⟨reply, t⟩, hanswer, rfl⟩ := Option.map_eq_some_iff.mp he
    obtain ⟨ht, -, hproper⟩ :=
      h.answerPicture (h.pictures r (List.mem_of_getElem? hk)) hanswer
    have hgrows : Grows t { t with
        pictures := t.pictures.set k { r with reply := some reply } } :=
      .of_eq rfl rfl
    refine ht.of_grows hgrows (fun _ _ => Or.inl) (fun _ => Or.inl)
      (fun r' hr' => ?_) (fun _ => Or.inl) fun _ => Or.inl
    rcases List.mem_or_eq_of_mem_set hr' with hold | rfl
    · exact .inl hold
    · exact .inr (hgrows.picture hproper)

theorem imageSaved_proper {r : PictureRequest} {reply : PictureReply}
    (hr : r.Proper s) (hreply : r.reply = some reply) (held : Bool) :
    ∀ op ∈ NetworkService.imageSaved held r.op reply,
      PictureRequest.Proper s ⟨r.screen, op, none⟩ := by
  intro op hop
  refine ⟨?_, fun _ _ _ hnone => nomatch hnone⟩
  rintro userID url rfl
  rw [NetworkService.imageSaved.eq_def] at hop
  split at hop
  · cases List.mem_singleton.mp hop
  · next hop' =>
      split at hop
      · cases List.mem_singleton.mp hop
        exact hr.reply _ _ hop' hreply
      · cases hop
  · cases hop

theorem Orderly.pictureCalled (h : Orderly s) {k : ℕ} {held : Bool}
    (he : s.handle (.pictureCalled k held) = some s') : Orderly s' := by
  obtain ⟨r, hk, he⟩ := Option.bind_eq_some_iff.mp he
  obtain ⟨reply, hreply, rfl⟩ := Option.map_eq_some_iff.mp he
  have hr := h.pictures r (List.mem_of_getElem? hk)
  have hgrows : Grows s { s with
      pictures := s.pictures.eraseIdx k ++
        (NetworkService.imageSaved (s.onScreen r.screen || held) r.op
          reply).map fun op => ⟨r.screen, op, none⟩ } :=
    .of_eq rfl rfl
  refine h.of_grows hgrows (fun _ _ => Or.inl) (fun _ => Or.inl)
    (fun r' hr' => ?_) (fun _ => Or.inl) fun _ => Or.inl
  rcases List.mem_append.mp hr' with hold | hnew
  · exact .inl (List.mem_of_mem_eraseIdx hold)
  · obtain ⟨op, hop, rfl⟩ := List.mem_map.mp hnew
    exact .inr (hgrows.picture (imageSaved_proper hr hreply _ op hop))

/-- The picture is on its way: nothing is known of it yet. -/
theorem Orderly.picked (h : Orderly s) {dataImage : List UInt8}
    (he : s.handle (.picked dataImage) = some s') : Orderly s' := by
  rw [handle] at he
  split at he
  · obtain rfl := Option.some.inj he
    refine h.of_grows (.of_eq rfl rfl) (fun _ _ => Or.inl) (fun _ => Or.inl)
      (fun r hr => ?_) (fun _ => Or.inl) fun _ => Or.inl
    rcases List.mem_append.mp hr with hold | hnew
    · exact .inl hold
    · obtain ⟨op, hop, rfl⟩ := List.mem_map.mp hnew
      refine .inr ⟨?_, fun _ _ _ hnone => nomatch hnone⟩
      rintro userID url rfl
      cases huser : s.currentUser with
      | none =>
          rw [huser] at hop
          cases hop
      | some user =>
          rw [huser] at hop
          cases List.mem_singleton.mp hop
  · cases he

end Steps

end People

end PhoRent
