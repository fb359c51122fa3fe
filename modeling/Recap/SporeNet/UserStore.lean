import Recap.Blaze.Authentication

/-! What becomes of the changes that are made to users, between their files and their objects. -/

namespace Recap.SporeNet

open Recap.Blaze Recap.Runs

/-- The first logged in user with an id. -/
def UserManager.getUserById (s : UserManager) (id : Int64) : Option UserManager.UserPtr :=
  (OrderedMap.first s.sUsersByEmail fun _ user =>
    s.objects[user]?.map UserManager.User.id = some id).map Prod.snd

/--
The users with what they hold, which is kept as the changes that have led to it.

A client is whoever holds a user: a Blaze client, a session of the web interface, a client of a game.
-/
structure UserStore (Client Change : Type) where
  auth : Authentication Client := .initial
  /-- The changes in each user object, oldest first. -/
  data : UserManager.UserPtr → List Change := fun _ => []
  /-- The changes in the file of each user. -/
  stored : String → List Change := fun _ => []
  /-- All changes that were ever made to a user, through whatever object. -/
  made : String → List Change := fun _ => []

namespace UserStore

variable {Client Change : Type} [DecidableEq Client]

/-- What can happen to users and to those who hold them. -/
inductive Input (Client Change : Type) where
  | signUp (mail : String) (stored : StoredUser) (saved : Bool)
  | login (client : Client) (mail : String) (pass : Bytes)
  /-- `AuthComponent::SilentLogin`, and a request of the web interface with a token or a key. -/
  | silentLogin (client : Client) (auth : Bytes)
  | expressLogin (client : Client) (mail : String)
  | helloPlayer (client : Client) (blazeId : Int64)
  | getAuthToken (client : Client)
  /-- A request that changes what is saved of the client's user. -/
  | change (client : Client) (change : Change)
  /-- `AuthComponent::Logout` and `API::game_account_logout`, whose file may fail to be written. -/
  | logout (client : Client) (saved : Bool)
  | disconnect (client : Client)
  /-- The server ends without saving anybody, and another one is started. -/
  | restart

/-- The user object of a client. -/
def held (s : UserStore Client Change) (client : Client) :
    Option (UserManager.UserPtr × UserManager.User) :=
  (s.auth.mUser client).bind fun user => s.auth.manager.objects[user]?.map fun record => (user, record)

/-- `UserManager::SignUp`, which makes a file for a mail that has none and is not logged in. -/
def signUp (s : UserStore Client Change) (mail : String) (stored : StoredUser) (saved : Bool) :
    UserStore Client Change :=
  if s.auth.manager.sUsersByEmail[mail]?.isSome ∨ (s.auth.manager.files mail).isSome ∨ !saved then s
  else
    { s with
      auth := { s.auth with manager := { s.auth.manager with
        files := Function.update s.auth.manager.files mail (some stored) } }
      stored := Function.update s.stored mail [] }

/-- `AuthComponent::Login`, which loads the file into a new object unless the user is logged in. -/
def login (s : UserStore Client Change) (client : Client) (mail : String) (pass : Bytes) :
    UserStore Client Change :=
  { s with
    auth := s.auth.login client mail pass
    data := match s.auth.manager.sUsersByEmail[mail]? with
      | some _ => s.data
      | none => Function.update s.data s.auth.manager.objects.length
          (if (s.auth.manager.files mail).isSome then s.stored mail else []) }

/-- `RakNet::Client::SetUser` of the user that says hello. -/
def helloPlayer (s : UserStore Client Change) (client : Client) (blazeId : Int64) :
    UserStore Client Change :=
  match s.auth.manager.getUserById blazeId with
  | none => s
  | some user => { s with auth := s.auth.setUser client user }

/-- A change to the user object of a client. -/
def change (s : UserStore Client Change) (client : Client) (change : Change) :
    UserStore Client Change :=
  match s.held client with
  | none => s
  | some (user, record) =>
    { s with
      data := Function.update s.data user (s.data user ++ [change])
      made := Function.update s.made record.mUsername (s.made record.mUsername ++ [change]) }

/-- `User::Logout`, after which the client holds the user object still. -/
def logout (s : UserStore Client Change) (client : Client) (saved : Bool) : UserStore Client Change :=
  match s.held client with
  | none => s
  | some (user, record) =>
    if saved then
      { s with
        auth := s.auth.logout client
        stored := Function.update s.stored record.mUsername (s.data user) }
    else
      { s with
        auth := { s.auth with manager := s.auth.manager.removeUser record.mUsername } }

def next (s : UserStore Client Change) : Input Client Change → UserStore Client Change
  | .signUp mail stored saved => s.signUp mail stored saved
  | .login client mail pass => s.login client mail pass
  | .silentLogin client auth => { s with auth := s.auth.silentLogin client auth }
  | .expressLogin client mail => { s with auth := s.auth.expressLogin client mail }
  | .helloPlayer client blazeId => s.helloPlayer client blazeId
  | .getAuthToken client => { s with auth := s.auth.getAuthToken client }
  | .change client change => s.change client change
  | .logout client saved => s.logout client saved
  | .disconnect client =>
    { s with auth := { s.auth with mUser := Function.update s.auth.mUser client none } }
  | .restart =>
    { s with auth := { Authentication.initial with manager := { UserManager.initial with
        files := s.auth.manager.files } } }

def step (s : UserStore Client Change) (input : Input Client Change) :
    Option (UserStore Client Change) :=
  some (s.next input)

/-- What a login of a user comes to: the object of a user that is logged in, else the file. -/
def latest (s : UserStore Client Change) (mail : String) : List Change :=
  match s.auth.manager.sUsersByEmail[mail]? with
  | some user => s.data user
  | none => s.stored mail

/-- Nothing is lost: a login of any user comes to all changes that were ever made to the user. -/
def UpToDate (s : UserStore Client Change) : Prop := ∀ mail, s.latest mail = s.made mail

/--
The inputs that are safe.

A change is made through the object that is logged in. A logout leaves as much in the file as there
was to be found before it, and so does the end of the server for every user.
-/
def Careful (s : UserStore Client Change) : Input Client Change → Prop
  | .change client _ => ∀ user record, s.held client = some (user, record) →
      s.auth.manager.sUsersByEmail[record.mUsername]? = some user
  | .logout client saved => ∀ user record, s.held client = some (user, record) →
      (if saved then s.data user else s.stored record.mUsername) = s.latest record.mUsername
  | .restart => ∀ mail, s.stored mail = s.latest mail
  | _ => True

/-- What holds in every state, whatever has been lost. -/
structure Sound (s : UserStore Client Change) : Prop where
  /-- A user is logged in under the name of the object. -/
  named : ∀ mail user, s.auth.manager.sUsersByEmail[mail]? = some user →
    s.auth.manager.objects[user]?.map UserManager.User.mUsername = some mail
  /-- There are no changes in a file that does not exist. -/
  empty : ∀ mail, s.auth.manager.files mail = none → s.stored mail = []

variable {s : UserStore Client Change}

/-! ### One input -/

omit [DecidableEq Client] in
/-- What is found of a user depends on who is logged in, and on that object or the file. -/
theorem latest_congr {other : UserStore Client Change} {mail : String}
    (online : other.auth.manager.sUsersByEmail[mail]? = s.auth.manager.sUsersByEmail[mail]?)
    (data : ∀ user, s.auth.manager.sUsersByEmail[mail]? = some user → other.data user = s.data user)
    (stored : other.stored mail = s.stored mail) : other.latest mail = s.latest mail := by
  unfold latest
  rw [online]
  cases found : s.auth.manager.sUsersByEmail[mail]? with
  | none => exact stored
  | some user => exact data user found

omit [DecidableEq Client] in
/-- A user that is logged in has an object. -/
theorem Sound.lt (sound : s.Sound) {mail : String} {user : UserManager.UserPtr}
    (online : s.auth.manager.sUsersByEmail[mail]? = some user) :
    user < s.auth.manager.objects.length := by
  obtain ⟨record, found, -⟩ := Option.map_eq_some_iff.mp (sound.named mail user online)
  exact (List.getElem?_eq_some_iff.mp found).1

omit [DecidableEq Client] in
/-- Two users that are logged in do not share an object. -/
theorem Sound.mail_eq (sound : s.Sound) {mail other : String} {user : UserManager.UserPtr}
    (first : s.auth.manager.sUsersByEmail[mail]? = some user)
    (second : s.auth.manager.sUsersByEmail[other]? = some user) : mail = other := by
  have named := sound.named mail user first
  rw [sound.named other user second] at named
  exact (Option.some_inj.mp named).symm

omit [DecidableEq Client] in
theorem held_eq_some_iff {client : Client} {user : UserManager.UserPtr} {record : UserManager.User} :
    s.held client = some (user, record) ↔
      s.auth.mUser client = some user ∧ s.auth.manager.objects[user]? = some record := by
  unfold held
  rw [Option.bind_eq_some_iff]
  constructor
  · intro ⟨other, bound, there⟩
    obtain ⟨found, present, same⟩ := Option.map_eq_some_iff.mp there
    obtain ⟨rfl, rfl⟩ := Prod.mk.inj same
    exact ⟨bound, present⟩
  · intro ⟨bound, present⟩
    exact ⟨user, bound, by rw [present, Option.map_some]⟩

omit [DecidableEq Client] in
/-- What is found of all users is the same, and so is what was made of them. -/
theorem UpToDate.congr (upToDate : s.UpToDate) {other : UserStore Client Change}
    (online : other.auth.manager.sUsersByEmail = s.auth.manager.sUsersByEmail)
    (data : other.data = s.data) (stored : other.stored = s.stored) (made : other.made = s.made) :
    other.UpToDate := by
  intro mail
  rw [made, ← upToDate mail]
  exact latest_congr (by rw [online]) (fun _ _ => by rw [data]) (by rw [stored])

omit [DecidableEq Client] in
/-- The objects have the same names, and nothing is new but what is in the files. -/
theorem Sound.congr (sound : s.Sound) {other : UserStore Client Change}
    (online : other.auth.manager.sUsersByEmail = s.auth.manager.sUsersByEmail)
    (objects : ∀ user : UserManager.UserPtr, other.auth.manager.objects[user]?.map UserManager.User.mUsername =
      s.auth.manager.objects[user]?.map UserManager.User.mUsername)
    (files : other.auth.manager.files = s.auth.manager.files) (stored : other.stored = s.stored) :
    other.Sound where
  named := by
    intro mail user found
    rw [objects]
    exact sound.named mail user (online ▸ found)
  empty := by
    intro mail missing
    rw [stored]
    exact sound.empty mail (files ▸ missing)

/-- A login with a token only binds the client. -/
theorem silentLogin_manager (client : Client) (auth : Bytes) :
    (s.auth.silentLogin client auth).manager = s.auth.manager := by
  unfold Authentication.silentLogin
  split <;> rfl

/-- A login with a mail only binds the client. -/
theorem expressLogin_manager (client : Client) (mail : String) :
    (s.auth.expressLogin client mail).manager = s.auth.manager := by
  unfold Authentication.expressLogin
  split <;> rfl

/-- A hello only binds the client. -/
theorem helloPlayer_eq (client : Client) (blazeId : Int64) :
    ∃ mUser, s.helloPlayer client blazeId = { s with auth := { s.auth with mUser := mUser } } := by
  unfold helloPlayer
  split
  · exact ⟨s.auth.mUser, rfl⟩
  · exact ⟨_, rfl⟩

omit [DecidableEq Client] in
/-- A token is written into an object, and nothing else is. -/
theorem getAuthToken_cases (client : Client) :
    s.auth.getAuthToken client = s.auth ∨ ∃ user token issued, s.auth.getAuthToken client =
      { s.auth with manager := s.auth.manager.setAuthToken user token, issued := issued } := by
  unfold Authentication.getAuthToken
  split
  · exact .inl rfl
  · exact .inr ⟨_, _, _, rfl⟩

/-- A login finds the user, or comes to a new object that holds what is in the file. -/
theorem login_cases (sound : s.Sound) (client : Client) (mail : String) (pass : Bytes) :
    (∃ mUser, s.login client mail pass = { s with auth := { s.auth with mUser := mUser } }) ∨
    ∃ record mUser sUsersByEmail, s.auth.manager.sUsersByEmail[mail]? = none ∧
      record.mUsername = mail ∧
      (sUsersByEmail = s.auth.manager.sUsersByEmail ∨ sUsersByEmail =
        s.auth.manager.sUsersByEmail.insertIfNew mail s.auth.manager.objects.length) ∧
      s.login client mail pass = { s with
        auth := { s.auth with
          mUser := mUser
          manager := { s.auth.manager with
            sUsersByEmail := sUsersByEmail
            objects := s.auth.manager.objects ++ [record] } }
        data := Function.update s.data s.auth.manager.objects.length (s.stored mail) } := by
  unfold login Authentication.login UserManager.login
  cases found : s.auth.manager.sUsersByEmail[mail]? with
  | some user => exact .inl ⟨_, rfl⟩
  | none =>
    right
    -- Without a file there is nothing to load, and the file would have no changes.
    have loaded : (if (s.auth.manager.files mail).isSome then s.stored mail else []) = s.stored mail := by
      cases file : s.auth.manager.files mail with
      | none => simp [sound.empty mail file]
      | some stored => rfl
    have name : ((s.auth.manager.load mail).getD { mUsername := mail }).mUsername = mail := by
      unfold UserManager.load
      cases s.auth.manager.files mail <;> rfl
    dsimp only
    rw [loaded]
    split
    · exact ⟨_, _, _, rfl, name, .inr rfl, rfl⟩
    · exact ⟨_, _, _, rfl, name, .inl rfl, rfl⟩

omit [DecidableEq Client] in
/-- What a logout does to the users, with what is in the file of the user after it. -/
theorem logout_cases (client : Client) (saved : Bool) :
    (s.held client = none ∧ s.logout client saved = s) ∨
    ∃ user record files, s.held client = some (user, record) ∧
      (∀ mail, (s.auth.manager.files mail).isSome → (files mail).isSome) ∧
      (saved → (files record.mUsername).isSome) ∧
      s.logout client saved = { s with
        auth := { s.auth with manager := { s.auth.manager with
          sUsersByEmail := s.auth.manager.sUsersByEmail.erase record.mUsername
          files := files } }
        stored := Function.update s.stored record.mUsername
          (if saved then s.data user else s.stored record.mUsername) } := by
  unfold logout
  cases holds : s.held client with
  | none => exact .inl ⟨rfl, rfl⟩
  | some holding =>
    obtain ⟨user, record⟩ := holding
    obtain ⟨bound, present⟩ := held_eq_some_iff.mp holds
    right
    cases saved with
    | false =>
      refine ⟨user, record, s.auth.manager.files, rfl, fun _ => id, nofun, ?_⟩
      simp only [Bool.false_eq_true, if_false, Function.update_eq_self]
      rfl
    | true =>
      have written : s.auth.logout client = { s.auth with
          manager := (s.auth.manager.removeUser record.mUsername).save record } := by
        simp only [Authentication.logout, bound, UserManager.logout, present]
      refine ⟨user, record, Function.update s.auth.manager.files record.mUsername
        (some ⟨record.mPassword, record.id⟩), rfl, ?_, ?_, ?_⟩
      · intro mail exists_
        by_cases own : mail = record.mUsername
        · simp [own]
        · rwa [Function.update_of_ne own]
      · simp
      · simp only [if_true, written]
        rfl

omit [DecidableEq Client] in
theorem Sound.signUp (sound : s.Sound) (mail : String) (stored : StoredUser) (saved : Bool) :
    (s.signUp mail stored saved).Sound := by
  unfold UserStore.signUp
  split
  · exact sound
  · refine ⟨sound.named, ?_⟩
    intro other missing
    by_cases own : other = mail
    · simp [own] at missing
    · simp only [Function.update_of_ne own] at missing ⊢
      exact sound.empty other missing

theorem Sound.login (sound : s.Sound) (client : Client) (mail : String) (pass : Bytes) :
    (s.login client mail pass).Sound := by
  rcases login_cases sound client mail pass with ⟨mUser, same⟩ |
    ⟨record, mUser, online, new, name, kind, same⟩
  · rw [same]
    exact sound.congr rfl (fun _ => rfl) rfl rfl
  · rw [same]
    refine ⟨?_, sound.empty⟩
    intro other user found
    have before : ∀ user, s.auth.manager.sUsersByEmail[other]? = some user →
        (s.auth.manager.objects ++ [record])[user]?.map UserManager.User.mUsername = some other := by
      intro user old
      rw [List.getElem?_append_left (sound.lt old)]
      exact sound.named other user old
    rcases kind with rfl | rfl
    · exact before user found
    · rw [OrderedMap.lookup_insertIfNew] at found
      -- The new object is the last one, and it has the name that it was loaded by.
      split at found
      · rename_i own
        rw [new] at found
        obtain rfl := Option.some_inj.mp found
        simp [name, own]
      · exact before user found

omit [DecidableEq Client] in
theorem Sound.getAuthToken (sound : s.Sound) (client : Client) :
    ({ s with auth := s.auth.getAuthToken client } : UserStore Client Change).Sound := by
  rcases @getAuthToken_cases Client Change s client with same | ⟨user, token, issued, same⟩
  · rw [same]
    exact sound
  · rw [same]
    refine sound.congr rfl ?_ rfl rfl
    -- The token is not the name.
    intro other
    simp only [UserManager.setAuthToken, List.getElem?_modify]
    cases s.auth.manager.objects[other]? with
    | none => rfl
    | some record => by_cases own : user = other <;> simp [own]

omit [DecidableEq Client] in
theorem Sound.logout (sound : s.Sound) (client : Client) (saved : Bool) :
    (s.logout client saved).Sound := by
  rcases @logout_cases Client Change s client saved with ⟨-, same⟩ |
    ⟨user, record, files, holds, more, written, same⟩
  · rw [same]
    exact sound
  · rw [same]
    constructor
    · intro mail other found
      rw [OrderedMap.lookup_erase] at found
      split at found
      · cases found
      · exact sound.named mail other found
    · intro mail missing
      replace missing : files mail = none := missing
      have wasMissing : s.auth.manager.files mail = none := by
        by_contra there
        have still := more mail (Option.isSome_iff_ne_none.mpr there)
        rw [missing] at still
        cases still
      by_cases own : mail = record.mUsername
      · subst own
        cases saved with
        | false => simpa using sound.empty _ wasMissing
        | true =>
          have there := written rfl
          rw [missing] at there
          cases there
      · simp only [Function.update_of_ne own]
        exact sound.empty mail wasMissing

/-- Every input keeps the names and the empty files. -/
theorem Sound.next (sound : s.Sound) (input : Input Client Change) : (s.next input).Sound := by
  cases input with
  | signUp mail stored saved => exact sound.signUp mail stored saved
  | login client mail pass => exact sound.login client mail pass
  | silentLogin client auth =>
    have same := @silentLogin_manager Client Change _ s client auth
    exact sound.congr (by simp [UserStore.next, same]) (by simp [UserStore.next, same])
      (by simp [UserStore.next, same]) rfl
  | expressLogin client mail =>
    have same := @expressLogin_manager Client Change _ s client mail
    exact sound.congr (by simp [UserStore.next, same]) (by simp [UserStore.next, same])
      (by simp [UserStore.next, same]) rfl
  | helloPlayer client blazeId =>
    obtain ⟨mUser, same⟩ := @helloPlayer_eq Client Change _ s client blazeId
    have bound : s.next (.helloPlayer client blazeId) = _ := same
    rw [bound]
    exact sound.congr rfl (fun _ => rfl) rfl rfl
  | getAuthToken client => exact sound.getAuthToken client
  | change client change =>
    unfold UserStore.next UserStore.change
    dsimp only
    split
    · exact sound
    · exact sound.congr rfl (fun _ => rfl) rfl rfl
  | logout client saved => exact sound.logout client saved
  | disconnect client => exact sound.congr rfl (fun _ => rfl) rfl rfl
  | restart =>
    refine ⟨?_, sound.empty⟩
    intro mail user found
    simp [UserStore.next, Authentication.initial, UserManager.initial] at found

/-- A login keeps what is found of every user: an object that is logged in, or the file's copy. -/
theorem UpToDate.login (upToDate : s.UpToDate) (sound : s.Sound) (client : Client) (mail : String)
    (pass : Bytes) : (s.login client mail pass).UpToDate := by
  rcases login_cases sound client mail pass with ⟨mUser, same⟩ |
    ⟨record, mUser, online, new, name, kind, same⟩
  · rw [same]
    exact upToDate.congr rfl rfl rfl rfl
  · rw [same]
    intro other
    rw [← upToDate other]
    -- An object that was there before is not the new one.
    have old : ∀ user, s.auth.manager.sUsersByEmail[other]? = some user →
        Function.update s.data s.auth.manager.objects.length (s.stored mail) user = s.data user := by
      intro user found
      exact Function.update_of_ne (Nat.ne_of_lt (sound.lt found)) _ _
    rcases kind with rfl | rfl
    · exact latest_congr rfl old rfl
    · by_cases own : mail = other
      · subst own
        simp only [latest, OrderedMap.lookup_insertIfNew, new, if_true, Option.getD_none,
          Function.update_self]
      · refine latest_congr ?_ old rfl
        simp [OrderedMap.lookup_insertIfNew, own]

omit [DecidableEq Client] in
/-- A sign-up makes a file without changes, where there was nothing before. -/
theorem UpToDate.signUp (upToDate : s.UpToDate) (sound : s.Sound) (mail : String) (stored : StoredUser)
    (saved : Bool) : (s.signUp mail stored saved).UpToDate := by
  unfold UserStore.signUp
  split
  · exact upToDate
  · rename_i fresh
    have missing : s.auth.manager.files mail = none := by
      by_contra there
      exact fresh (.inr (.inl (Option.isSome_iff_ne_none.mpr there)))
    intro other
    rw [← upToDate other]
    refine latest_congr rfl (fun _ _ => rfl) ?_
    by_cases own : other = mail
    · subst own
      simp [sound.empty _ missing]
    · exact Function.update_of_ne own _ _

omit [DecidableEq Client] in
/-- A change is found again exactly when it was made through the object that is logged in. -/
theorem UpToDate.change_iff (upToDate : s.UpToDate) (sound : s.Sound) (client : Client)
    (change : Change) : (s.change client change).UpToDate ↔ s.Careful (.change client change) := by
  simp only [UserStore.change, Careful]
  cases holds : s.held client with
  | none => exact iff_of_true upToDate fun _ _ nobody => by cases nobody
  | some holding =>
    obtain ⟨user, record⟩ := holding
    simp only [Option.some.injEq, Prod.mk.injEq, and_imp]
    constructor
    · intro after _ _ same same'
      subst same same'
      have found := after record.mUsername
      have before := upToDate record.mUsername
      by_contra offline
      -- What is found is what was found before, and that is one change short.
      have grown : s.latest record.mUsername = s.made record.mUsername ++ [change] := by
        refine Eq.trans (Eq.symm ?_) (found.trans (Function.update_self ..))
        refine latest_congr rfl ?_ rfl
        intro other online
        refine Function.update_of_ne ?_ _ _
        intro same
        exact offline (same ▸ online)
      rw [before] at grown
      simpa using congrArg List.length grown
    · intro online
      have online := online user record rfl rfl
      intro mail
      by_cases own : mail = record.mUsername
      · subst own
        have before := upToDate record.mUsername
        simp only [latest, online, Function.update_self] at before ⊢
        rw [before]
      · simp only [Function.update_of_ne own]
        rw [← upToDate mail]
        refine latest_congr rfl ?_ rfl
        intro other found
        refine Function.update_of_ne ?_ _ _
        intro same
        exact own (sound.mail_eq (same ▸ found) online)

omit [DecidableEq Client] in
/-- A client that has logged out holds its user still, and what it changes then is lost. -/
theorem not_careful_of_logout {client : Client} (holds : (s.held client).isSome) (saved : Bool)
    (change : Change) : ¬ (s.logout client saved).Careful (.change client change) := by
  rcases @logout_cases Client Change s client saved with ⟨nobody, -⟩ |
    ⟨user, record, files, held, -, -, same⟩
  · rw [nobody] at holds
    cases holds
  · rw [same]
    intro online
    -- The object is the client's as before, but nobody is logged in under its name.
    have gone := online user record held
    simp at gone

/-! ### A whole run -/

end UserStore

end Recap.SporeNet
