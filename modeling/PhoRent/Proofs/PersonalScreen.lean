import PhoRent.App.People
import PhoRent.Lib.WriteQueue

/-!
# The personal screen and the document it was read from

The screen is behind its loading alert until the document has been read, so
nothing is sent from it before. After that every change of the number is shown
when it is acknowledged. As long as the user stays signed in, nobody else
changes the document, and Firestore answers the writes in the order they were
sent, the screen is behind the document by the writes that are on their way.

Two phases make up the invariant: the read is under way, or there is a queue of
writes between the document and the labels. `UserManager` goes with the labels.
-/

namespace PhoRent

open Machine WriteQueue

structure PersonalData.Same (data data' : PersonalData) : Prop where
  name : data.name = data'.name
  email : data.email = data'.email
  phone : data.phone = data'.phone

theorem PersonalData.Same.refl (data : PersonalData) : data.Same data :=
  ⟨rfl, rfl, rfl⟩

theorem PersonalData.Same.symm {data data' : PersonalData}
    (h : data.Same data') : data'.Same data :=
  ⟨h.name.symm, h.email.symm, h.phone.symm⟩

theorem PersonalData.Same.trans {data data' data'' : PersonalData}
    (h : data.Same data') (h' : data'.Same data'') : data.Same data'' :=
  ⟨h.name.trans h'.name, h.email.trans h'.email, h.phone.trans h'.phone⟩

def PersonalFields.of (data : PersonalData) : PersonalFields :=
  ⟨some data.name, some data.email, some (data.phone.getD ""), false⟩

def PersonalRequest.write (r : PersonalRequest) : Write (Option String) where
  value :=
    match r.op with
    | .updatePhone _ phone => some phone
    | _ => none
  done := r.reply.map Reply.ok

namespace People

def profile (s : People) (userID : String) : PersonalData :=
  .ofDocument userID ((s.users.get userID).map UserDocument.data)

/-- The user stays signed in and on the screen, nobody else signs up under the
same uid, and the requests are answered in the order they were sent. -/
def inOrder (userID : String) (s : People) : PeopleEvent → Bool
  | .registered userID' _ _ _ => userID' != userID
  | .session _ | .loggedOut | .opened | .released => false
  | .answered k _ => (s.requests.take k).all fun r => r.reply.isSome
  | .called k _ => k == 0
  | _ => true

/-- The document is being read, or the read has failed. -/
structure Loading (userID : String) (s : People) : Prop where
  view : ∃ view, s.view = some view ∧ view.alert = true
  shared : s.shared = none
  requests : s.requests = [] ∨ ∃ reply,
    s.requests = [⟨s.screens, some userID, .getPersonalInfo,
      .getUser userID, reply⟩] ∧
    ∀ document, reply = some (.success document) →
      (PersonalData.ofDocument userID document).Same (s.profile userID)

/-- The document has been read; the writes sent since then are between it and
the labels. -/
structure Ready (userID : String) (s : People) (data : PersonalData) : Prop where
  view : s.view = some (.of data)
  shared : s.shared = some data
  requests : ∀ r ∈ s.requests, ∃ phone reply,
    r = ⟨s.screens, some userID, .setPhone phone,
      .updatePhone userID phone, reply⟩
  name : (s.profile userID).name = data.name
  email : (s.profile userID).email = data.email
  settled : Settled (s.profile userID).phone data.phone
    (s.requests.map PersonalRequest.write)

structure Agreeing (userID : String) (s : People) : Prop where
  user : s.currentUser = some userID
  phase : Loading userID s ∨ ∃ data, Ready userID s data

section Steps

variable {s s' : People} {userID : String} {data : PersonalData}

theorem Ready.of_same (h : Ready userID s data) (hview : s'.view = s.view)
    (hshared : s'.shared = s.shared) (hscreens : s'.screens = s.screens)
    (hrequests : s'.requests = s.requests)
    (hprofile : (s'.profile userID).Same (s.profile userID)) :
    Ready userID s' data where
  view := hview.trans h.view
  shared := hshared.trans h.shared
  requests := by
    rw [hrequests, hscreens]
    exact h.requests
  name := hprofile.name.trans h.name
  email := hprofile.email.trans h.email
  settled := by
    rw [hrequests, hprofile.phone]
    exact h.settled

/-- A step that touches neither the screen nor what is read from the document
leaves them in agreement. -/
theorem Agreeing.of_same (h : Agreeing userID s)
    (huser : s'.currentUser = s.currentUser) (hview : s'.view = s.view)
    (hshared : s'.shared = s.shared) (hscreens : s'.screens = s.screens)
    (hrequests : s'.requests = s.requests)
    (hprofile : (s'.profile userID).Same (s.profile userID)) :
    Agreeing userID s' where
  user := huser.trans h.user
  phase := by
    rcases h.phase with hloading | ⟨data, hready⟩
    · refine .inl ⟨hview ▸ hloading.view, hshared.trans hloading.shared, ?_⟩
      rw [hrequests, hscreens]
      refine hloading.requests.imp id ?_
      rintro ⟨reply, hreq, hreply⟩
      exact ⟨reply, hreq, fun document hdocument =>
        (hreply document hdocument).trans hprofile.symm⟩
    · exact .inr ⟨data,
        hready.of_same hview hshared hscreens hrequests hprofile⟩

theorem profile_put (s : People) (userID userID' : String) (d : UserDocument) :
    ({ s with users := s.users.put userID' d } : People).profile userID =
      if userID = userID' then
        ⟨d.username, d.email, d.phone, userID, d.imageURL⟩
      else s.profile userID := by
  simp only [profile, Keyed.Coll.get_put]
  split
  · rw [Option.map_some, UserDocument.ofDocument_data]
  · rfl

theorem profile_of_get {d : UserDocument} (h : s.users.get userID = some d) :
    s.profile userID = ⟨d.username, d.email, d.phone, userID, d.imageURL⟩ := by
  rw [profile, h, Option.map_some, UserDocument.ofDocument_data]

theorem Agreeing.registered (h : Agreeing userID s)
    {userID' username email password : String}
    (hok : s.inOrder userID (.registered userID' username email password) =
      true)
    (he : s.handle (.registered userID' username email password) = some s') :
    Agreeing userID s' := by
  have hne : userID ≠ userID' := fun heq => by simp [inOrder, heq] at hok
  rw [handle] at he
  split at he
  · obtain rfl := Option.some.inj he
    refine h.of_same rfl rfl rfl rfl rfl ?_
    rw [profile_put, if_neg hne]
    exact .refl _
  · cases he

theorem Agreeing.appeared (h : Agreeing userID s) :
    Agreeing userID s.viewWillAppear := by
  refine ⟨h.user, ?_⟩
  rcases h.phase with hloading | ⟨data, hready⟩
  · obtain ⟨view, hview, halert⟩ := hloading.view
    refine .inl ⟨⟨{ view with alert := true }, ?_, rfl⟩, hloading.shared,
      hloading.requests⟩
    simp only [People.viewWillAppear, hview, halert, Option.map_some,
      Bool.true_or]
  · refine .inr ⟨data, ?_, hready.shared, hready.requests, hready.name,
      hready.email, hready.settled⟩
    simp only [People.viewWillAppear, hready.view, hready.shared]
    rfl

theorem Loading.not_usable (h : Loading userID s) : s.usable = false := by
  obtain ⟨view, hview, halert⟩ := h.view
  rw [usable, hview, Option.any_some, halert]
  rfl

theorem Ready.setPhone (h : Ready userID s data)
    (huser : s.currentUser = some userID) (phone : String) :
    Ready userID (s.setPhone phone) data where
  view := h.view
  shared := h.shared
  requests r hr := by
    rw [People.setPhone, send, huser] at hr
    rcases List.mem_append.mp hr with hr | hr
    · exact h.requests r hr
    · obtain rfl := List.mem_singleton.mp hr
      exact ⟨phone, none, rfl⟩
  name := h.name
  email := h.email
  settled := by
    have hsent := h.settled.send (some phone)
    rw [People.setPhone, send, huser, List.map_append]
    exact hsent

theorem Agreeing.confirmed (h : Agreeing userID s)
    {edits : List PersonalViewController.PhoneEdit}
    (he : s.handle (.confirmed edits) = some s') : Agreeing userID s' := by
  rw [handle] at he
  split at he
  · next husable =>
      obtain ⟨text, -, rfl⟩ := Option.map_eq_some_iff.mp he
      rcases h.phase with hloading | ⟨data, hready⟩
      · rw [hloading.not_usable] at husable
        cases husable
      · rw [People.checkPhone]
        split
        · next phone _ => exact ⟨h.user, .inr ⟨data, hready.setPhone h.user phone⟩⟩
        · exact h
        · exact h
  · cases he

theorem Agreeing.picked (h : Agreeing userID s) {dataImage : List UInt8}
    (he : s.handle (.picked dataImage) = some s') : Agreeing userID s' := by
  rw [handle] at he
  split at he
  · obtain rfl := Option.some.inj he
    exact h.of_same rfl rfl rfl rfl rfl (.refl _)
  · cases he

/-- What happens to a picture does not show in the name, the email or the
number. -/
theorem Agreeing.pictureAnswered (h : Agreeing userID s) {k : ℕ}
    {url : Option String}
    (he : s.handle (.pictureAnswered k url) = some s') :
    Agreeing userID s' := by
  obtain ⟨r, -, he⟩ := Option.bind_eq_some_iff.mp he
  split at he
  · cases he
  · obtain ⟨⟨reply, t⟩, hanswer, rfl⟩ := Option.map_eq_some_iff.mp he
    suffices ht : Agreeing userID t from
      ht.of_same rfl rfl rfl rfl rfl (.refl _)
    cases url with
    | none =>
        obtain ⟨-, rfl⟩ := Prod.mk.inj (Option.some.inj hanswer)
        exact h
    | some url =>
        rw [answerPicture.eq_def] at hanswer
        simp only at hanswer
        cases hop : r.op with
        | putData userID' data =>
            rw [hop] at hanswer
            obtain ⟨-, rfl⟩ := Prod.mk.inj (Option.some.inj hanswer)
            exact h.of_same rfl rfl rfl rfl rfl (.refl _)
        | downloadURL userID' =>
            rw [hop, performPicture] at hanswer
            split at hanswer
            · obtain ⟨-, rfl⟩ := Prod.mk.inj (Option.some.inj hanswer)
              exact h.of_same rfl rfl rfl rfl rfl (.refl _)
            · cases hanswer
        | updateImageURL userID' url' =>
            rw [hop] at hanswer
            obtain ⟨d, hget, heq⟩ := Option.map_eq_some_iff.mp hanswer
            obtain ⟨-, rfl⟩ := Prod.mk.inj heq
            refine h.of_same rfl rfl rfl rfl rfl ?_
            rw [profile_put]
            split
            · next hsame =>
                subst hsame
                rw [profile_of_get hget]
                exact ⟨rfl, rfl, rfl⟩
            · exact .refl _

theorem Agreeing.pictureCalled (h : Agreeing userID s) {k : ℕ} {held : Bool}
    (he : s.handle (.pictureCalled k held) = some s') : Agreeing userID s' := by
  obtain ⟨r, -, he⟩ := Option.bind_eq_some_iff.mp he
  obtain ⟨reply, -, rfl⟩ := Option.map_eq_some_iff.mp he
  exact h.of_same rfl rfl rfl rfl rfl (.refl _)

/-- The read is answered: it brings the document as it is, or fails. -/
theorem Loading.answered (h : Loading userID s) {k : ℕ} {error : Option NSError}
    (he : s.handle (.answered k error) = some s') :
    Loading userID s' ∧ s'.currentUser = s.currentUser := by
  obtain ⟨r, hk, he⟩ := Option.bind_eq_some_iff.mp he
  rcases h.requests with hnone | ⟨reply₀, hreq, -⟩
  · rw [hnone] at hk
    cases hk
  · rw [hreq, List.getElem?_singleton] at hk
    split at hk
    · next hzero =>
        subst hzero
        obtain rfl := Option.some.inj hk
        split at he
        · cases he
        · cases error with
          | some error =>
              obtain rfl := Option.some.inj he
              refine ⟨⟨h.view, h.shared, .inr ⟨some (.failure error), ?_,
                nofun⟩⟩, rfl⟩
              simp only [hreq]
              rfl
          | none =>
              obtain rfl := Option.some.inj he
              refine ⟨⟨h.view, h.shared, .inr ⟨_, by simp only [hreq]; rfl,
                fun document hdocument => ?_⟩⟩, rfl⟩
              obtain rfl := Reply.success.inj (Option.some.inj hdocument)
              exact .refl _
    · cases hk

/-- The first of the writes that have not been answered is. -/
theorem Ready.answered (h : Ready userID s data) {k : ℕ}
    {error : Option NSError}
    (hok : s.inOrder userID (.answered k error) = true)
    (he : s.handle (.answered k error) = some s') :
    Ready userID s' data ∧ s'.currentUser = s.currentUser := by
  obtain ⟨r, hk, he⟩ := Option.bind_eq_some_iff.mp he
  obtain ⟨phone, reply₀, rfl⟩ := h.requests r (List.mem_of_getElem? hk)
  have hbefore : ∀ w ∈ (s.requests.map PersonalRequest.write).take k,
      w.done.isSome = true := by
    intro w hw
    rw [← List.map_take] at hw
    obtain ⟨r', hr', rfl⟩ := List.mem_map.mp hw
    have hsome := List.all_eq_true.mp hok r' hr'
    rwa [PersonalRequest.write, Option.isSome_map]
  cases reply₀ with
  | some reply₀ => cases he
  | none =>
      have hwrite : (s.requests.map PersonalRequest.write)[k]? =
          some ⟨some phone, none⟩ := by
        rw [List.getElem?_map, hk]
        rfl
      have hset {reply : Reply} : ∀ r' ∈ s.requests.set k
          ⟨s.screens, some userID, .setPhone phone,
            .updatePhone userID phone, some reply⟩, ∃ phone reply,
          r' = ⟨s.screens, some userID, .setPhone phone,
            .updatePhone userID phone, reply⟩ := by
        intro r' hr'
        rcases List.mem_or_eq_of_mem_set hr' with hold | rfl
        · exact h.requests r' hold
        · exact ⟨phone, _, rfl⟩
      cases error with
      | some error =>
          obtain rfl := Option.some.inj he
          refine ⟨⟨h.view, h.shared, hset, h.name, h.email, ?_⟩, rfl⟩
          have hanswer := h.settled.answer false hwrite hbefore
          rw [List.map_set]
          exact hanswer
      | none =>
          obtain ⟨⟨reply, t⟩, hanswer, rfl⟩ := Option.map_eq_some_iff.mp he
          obtain ⟨d, hget, heq⟩ := Option.map_eq_some_iff.mp hanswer
          obtain ⟨rfl, rfl⟩ := Prod.mk.inj heq
          let stored : People := { s with
            users := s.users.put userID { d with phone := some phone } }
          have hnew : stored.profile userID =
              { s.profile userID with phone := some phone } := by
            rw [profile_put, if_pos rfl, profile_of_get hget]
          refine ⟨⟨h.view, h.shared, hset,
            (congrArg PersonalData.name hnew).trans h.name,
            (congrArg PersonalData.email hnew).trans h.email, ?_⟩, rfl⟩
          have hanswer := h.settled.answer true hwrite hbefore
          rw [List.map_set]
          exact (congrArg PersonalData.phone hnew).symm ▸ hanswer

/-- The document has been read, and the screen shows it; or it has not. -/
theorem Loading.called (h : Loading userID s) {k : ℕ} {held : Bool}
    (he : s.handle (.called k held) = some s') :
    (Loading userID s' ∨ ∃ data, Ready userID s' data) ∧
      s'.currentUser = s.currentUser := by
  obtain ⟨r, hk, he⟩ := Option.bind_eq_some_iff.mp he
  rcases h.requests with hnone | ⟨reply₀, hreq, hreply⟩
  · rw [hnone] at hk
    cases hk
  · rw [hreq, List.getElem?_singleton] at hk
    split at hk
    · next hzero =>
        subst hzero
        obtain rfl := Option.some.inj hk
        obtain ⟨reply, rfl, rfl⟩ := Option.map_eq_some_iff.mp he
        obtain ⟨view, hview, halert⟩ := h.view
        have hon : s.onScreen s.screens = true := by
          rw [onScreen, hview, beq_self_eq_true]
          rfl
        simp only [hon, if_true]
        cases reply with
        | failure error =>
            refine ⟨.inl ⟨h.view, h.shared, .inl ?_⟩, rfl⟩
            simp only [hreq]
            rfl
        | success document =>
            have hsame := hreply document rfl
            refine ⟨.inr ⟨.ofDocument userID document, ?_, rfl, ?_,
              hsame.name.symm, hsame.email.symm, ?_⟩, rfl⟩
            · exact congrArg (Option.map _) hview
            · simp only [hreq]
              exact fun _ hr => absurd hr List.not_mem_nil
            · simp only [hreq]
              exact settled_nil.mpr hsame.phone.symm
    · cases hk

/-- The first of the writes is acknowledged. -/
theorem Ready.called (h : Ready userID s data) {held : Bool}
    (he : s.handle (.called 0 held) = some s') :
    (∃ data', Ready userID s' data') ∧ s'.currentUser = s.currentUser := by
  obtain ⟨r, hk, he⟩ := Option.bind_eq_some_iff.mp he
  obtain ⟨reply, hreply, rfl⟩ := Option.map_eq_some_iff.mp he
  obtain ⟨rest, hreq⟩ : ∃ rest, s.requests = r :: rest := by
    cases hrequests : s.requests with
    | nil =>
        rw [hrequests] at hk
        cases hk
    | cons r' rest =>
        rw [hrequests] at hk
        obtain rfl := Option.some.inj hk
        exact ⟨rest, rfl⟩
  have hall := h.requests
  have hsettled := h.settled
  rw [hreq] at hall hsettled
  obtain ⟨⟨phone, reply₀, rfl⟩, hrest⟩ := List.forall_mem_cons.mp hall
  obtain rfl : reply₀ = some reply := hreply
  have hacknowledged := hsettled.acknowledge
  have hon : s.onScreen s.screens = true := by
    rw [onScreen, h.view, beq_self_eq_true]
    rfl
  simp only [hon, if_true]
  cases reply with
  | failure error =>
      refine ⟨⟨data, h.view, h.shared, ?_, h.name, h.email, ?_⟩, rfl⟩
      · simp only [hreq]
        exact hrest
      · simp only [hreq]
        exact hacknowledged
  | success document =>
      refine ⟨⟨{ data with phone := some phone }, ?_, ?_, ?_, h.name, h.email,
        ?_⟩, rfl⟩
      · exact congrArg (Option.map _) h.view
      · exact congrArg (Option.map _) h.shared
      · simp only [hreq]
        exact hrest
      · simp only [hreq]
        exact hacknowledged

theorem Agreeing.step {e : PeopleEvent} (h : Agreeing userID s)
    (hok : s.inOrder userID e = true) (he : s.handle e = some s') :
    Agreeing userID s' := by
  cases e with
  | registered userID' username email password => exact h.registered hok he
  | session _ | loggedOut | opened | released => cases hok
  | appeared =>
      obtain rfl := Option.some.inj he
      exact h.appeared
  | confirmed edits => exact h.confirmed he
  | picked dataImage => exact h.picked he
  | answered k error =>
      rcases h.phase with hloading | ⟨data, hready⟩
      · obtain ⟨hphase, huser⟩ := hloading.answered he
        exact ⟨huser.trans h.user, .inl hphase⟩
      · obtain ⟨hphase, huser⟩ := hready.answered hok he
        exact ⟨huser.trans h.user, .inr ⟨data, hphase⟩⟩
  | called k held =>
      rcases h.phase with hloading | ⟨data, hready⟩
      · obtain ⟨hphase, huser⟩ := hloading.called he
        exact ⟨huser.trans h.user, hphase⟩
      · obtain rfl : k = 0 := beq_iff_eq.mp hok
        obtain ⟨hphase, huser⟩ := hready.called he
        exact ⟨huser.trans h.user, .inr hphase⟩
  | pictureAnswered k url => exact h.pictureAnswered he
  | pictureCalled k held => exact h.pictureCalled he

end Steps

/-- What is on the screen and in `UserManager` is in the document. -/
structure Shows (s : People) (userID : String) : Prop where
  view : s.view = some (.of (s.profile userID))
  shared : ∃ data, s.shared = some data ∧ data.Same (s.profile userID)

end People

end PhoRent
