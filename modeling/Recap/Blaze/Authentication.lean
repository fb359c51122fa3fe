import Recap.Lib.Runs
import Recap.SporeNet.UserManager

/-! Which requests bind a client to a user, and what they have to present for it. -/

namespace Recap.Blaze

open Recap.SporeNet Recap.Runs

/-- The clients with the users they are bound to, and every token that was ever issued. -/
structure Authentication (Client : Type) where
  manager : UserManager
  mUser : Client → Option UserManager.UserPtr
  issued : List (String × Bytes)

namespace Authentication

variable {Client : Type} [DecidableEq Client]

def initial : Authentication Client where
  manager := .initial
  mUser := fun _ => none
  issued := []

/-- The requests that have to do with users, and what else happens to users. -/
inductive Input (Client : Type) where
  | login (client : Client) (mail : String) (pass tokn : Bytes)
  | silentLogin (client : Client) (auth : Bytes)
  | expressLogin (client : Client) (mail : String) (pass : Bytes)
  | getAuthToken (client : Client)
  | logout (client : Client)
  | disconnect (client : Client)
  /-- A session of the web interface logs its user out. -/
  | apiLogout (user : UserManager.UserPtr)
  /-- The file of a user is made, changed or removed. -/
  | store (mail : String) (stored : Option StoredUser)

/-- `Request::set_user` -/
def setUser (s : Authentication Client) (client : Client) (user : UserManager.UserPtr) :
    Authentication Client :=
  { s with mUser := Function.update s.mUser client (some user) }

/-- `AuthComponent::Login`, which reads the token and does not use it. -/
def login (s : Authentication Client) (client : Client) (mail : String) (pass : Bytes) :
    Authentication Client :=
  let ((user, success, alreadyLoggedIn), manager) := s.manager.login mail pass
  let s := { s with manager := manager }
  if !success && !alreadyLoggedIn then s else s.setUser client user

/-- `AuthComponent::SilentLogin` -/
def silentLogin (s : Authentication Client) (client : Client) (auth : Bytes) :
    Authentication Client :=
  match s.manager.getUserByAuthToken auth with
  | none => s
  | some user => s.setUser client user

/-- `AuthComponent::ExpressLogin`, which reads the password and does not use it. -/
def expressLogin (s : Authentication Client) (client : Client) (mail : String) :
    Authentication Client :=
  match s.manager.getUserByEmail mail with
  | none => s
  | some user => s.setUser client user

/-- `AuthComponent::GetAuthToken`, whose token is the number of the account. -/
def getAuthToken (s : Authentication Client) (client : Client) : Authentication Client :=
  match (s.mUser client).bind fun user => s.manager.objects[user]?.map fun record => (user, record)
  with
  | none => s
  | some (user, record) =>
    { s with
      manager := s.manager.setAuthToken user (ofInt64 record.id)
      issued := (record.mUsername, ofInt64 record.id) :: s.issued }

/-- `AuthComponent::Logout`, which leaves the client bound to the user. -/
def logout (s : Authentication Client) (client : Client) : Authentication Client :=
  match s.mUser client with
  | none => s
  | some user => { s with manager := s.manager.logout user }

def step (s : Authentication Client) : Input Client → Authentication Client
  | .login client mail pass _ => s.login client mail pass
  | .silentLogin client auth => s.silentLogin client auth
  | .expressLogin client mail _ => s.expressLogin client mail
  | .getAuthToken client => s.getAuthToken client
  | .logout client => s.logout client
  | .disconnect client => { s with mUser := Function.update s.mUser client none }
  | .apiLogout user => { s with manager := s.manager.logout user }
  | .store mail stored =>
    { s with manager := { s.manager with files := Function.update s.manager.files mail stored } }

/-- The password that a request presents. -/
def Input.password : Input Client → Option Bytes
  | .login _ _ pass _ => some pass
  | .expressLogin _ _ pass => some pass
  | _ => none

/-- The token that a request presents. -/
def Input.token : Input Client → Option Bytes
  | .login _ _ _ tokn => some tokn
  | .silentLogin _ auth => some auth
  | _ => none

/-- The request presents the user's password, or a token that was issued to the user. -/
def Presents (s : Authentication Client) (input : Input Client) (user : UserManager.UserPtr) :
    Prop :=
  ∃ record, s.manager.objects[user]? = some record ∧
    (input.password = some record.mPassword ∨
      ∃ token, input.token = some token ∧ token ≠ [] ∧ (record.mUsername, token) ∈ s.issued)

/-- Whoever becomes bound to a user by a request has presented something of the user in it. -/
def Authentic (s : Authentication Client) (input : Input Client) : Prop :=
  ∀ client user, (s.step input).mUser client = some user → s.mUser client ≠ some user →
    (s.step input).Presents input user

/--
The requests that are checked.

A login of a user that is logged in already presents the user's password or token, since nobody
else looks at it, and a silent login without a token finds nobody without one.
-/
def Allowed (s : Authentication Client) : Input Client → Prop
  | .login client mail pass tokn => ∀ user, s.manager.getUserByEmail mail = some user →
      s.mUser client ≠ some user → s.Presents (.login client mail pass tokn) user
  | .expressLogin client mail pass => ∀ user, s.manager.getUserByEmail mail = some user →
      s.mUser client ≠ some user → s.Presents (.expressLogin client mail pass) user
  | .silentLogin client auth => auth = [] → ∀ user, s.manager.getUserByAuthToken [] = some user →
      s.mUser client = some user
  | _ => True

/-- What holds in every state: the token of a user has been issued to the user. -/
def Sound (s : Authentication Client) : Prop :=
  ∀ record ∈ s.manager.objects, record.mAuthToken ≠ [] →
    (record.mUsername, record.mAuthToken) ∈ s.issued

variable {s : Authentication Client}

/-! ### One request -/

/-- Only the client that a request is for may become bound, and only to the user it is bound to. -/
theorem authentic_iff_of_bound {input : Input Client} {client : Client} {user : UserManager.UserPtr}
    (bound : (s.step input).mUser = Function.update s.mUser client (some user)) :
    s.Authentic input ↔ (s.mUser client ≠ some user → (s.step input).Presents input user) := by
  unfold Authentic
  rw [bound]
  constructor
  · intro authentic new
    exact authentic client user (Function.update_self ..) new
  · intro presents other user' holds new
    by_cases same : other = client
    · -- The client that is bound has this user only.
      subst same
      rw [Function.update_self] at holds
      obtain rfl := Option.some_inj.mp holds
      exact presents new
    · rw [Function.update_of_ne same] at holds
      exact absurd holds new

/-- A step after which nobody has a user that it had not before binds nobody. -/
theorem authentic_of_kept {input : Input Client}
    (kept : ∀ client user, (s.step input).mUser client = some user → s.mUser client = some user) :
    s.Authentic input :=
  fun client user holds new => absurd (kept client user holds) new

omit [DecidableEq Client] in
/-- What is presented is presented to the objects and the tokens that there are. -/
theorem presents_congr {next : Authentication Client} (input : Input Client)
    (user : UserManager.UserPtr) (objects : next.manager.objects = s.manager.objects)
    (issued : next.issued = s.issued) : next.Presents input user ↔ s.Presents input user := by
  unfold Presents
  rw [objects, issued]

/-- The password of a user is looked at only when the user is not logged in yet. -/
theorem authentic_login_iff (client : Client) (mail : String) (pass tokn : Bytes) :
    s.Authentic (.login client mail pass tokn) ↔ s.Allowed (.login client mail pass tokn) := by
  simp only [Allowed, UserManager.getUserByEmail]
  rcases s.manager.login_cases mail pass with ⟨user, found, logs⟩ | ⟨record, missing, -, tried⟩
  · -- The user is logged in already, and the client is bound whatever it has presented.
    have bound : s.step (.login client mail pass tokn) = s.setUser client user := by
      simp only [step, login, logs]
      rfl
    rw [authentic_iff_of_bound (congrArg mUser bound), bound,
      @presents_congr _ s (s.setUser client user) _ user rfl rfl, found]
    constructor
    · intro presents other there
      obtain rfl := Option.some_inj.mp there
      exact presents
    · exact fun presents => presents user rfl
  · refine iff_of_true ?_ fun user there => ?_
    · rcases tried with ⟨right, logs⟩ | logs
      · -- The object that was loaded has the password that was presented.
        generalize manager_eq : ({ s.manager with
          objects := s.manager.objects ++ [record]
          sUsersByEmail := s.manager.sUsersByEmail.insertIfNew mail s.manager.objects.length } :
            UserManager) = manager at logs
        have bound : s.step (.login client mail pass tokn) =
            ({ s with manager := manager } : Authentication Client).setUser client
              s.manager.objects.length := by
          simp only [step, login, logs]
          rfl
        refine (authentic_iff_of_bound (congrArg mUser bound)).mpr fun _ => ?_
        rw [bound]
        refine ⟨record, ?_, Or.inl (congrArg some right.symm)⟩
        have last : (s.manager.objects ++ [record])[s.manager.objects.length]? = some record := by
          simp
        rw [← manager_eq]
        exact last
      · apply authentic_of_kept
        simp only [step, login, logs]
        exact fun _ _ holds => holds
    · rw [missing] at there
      cases there

/-- A silent login finds a user by the token, which is presented if there is one. -/
theorem authentic_silentLogin_iff (sound : s.Sound) (client : Client) (auth : Bytes) :
    s.Authentic (.silentLogin client auth) ↔ s.Allowed (.silentLogin client auth) := by
  simp only [Allowed]
  cases found : s.manager.getUserByAuthToken auth with
  | none =>
    have stepped : s.step (.silentLogin client auth) = s := by
      simp only [step, silentLogin, found]
    refine iff_of_true ?_ fun empty user there => ?_
    · apply authentic_of_kept
      rw [stepped]
      exact fun _ _ holds => holds
    · rw [← empty, found] at there
      cases there
  | some user =>
    have bound : s.step (.silentLogin client auth) = s.setUser client user := by
      simp only [step, silentLogin, found]
    obtain ⟨record, present, has⟩ := UserManager.token_of_getUserByAuthToken found
    rw [authentic_iff_of_bound (congrArg mUser bound), bound]
    by_cases empty : auth = []
    · -- An empty token is not one that was issued, so nothing is presented.
      subst empty
      have nothing : ¬ (s.setUser client user).Presents (.silentLogin client []) user := by
        intro presents
        obtain ⟨other, -, password | ⟨token, given, some_, -⟩⟩ := presents
        · cases password
        · exact some_ (Option.some_inj.mp given).symm
      constructor
      · intro presents _ other there
        obtain rfl := Option.some_inj.mp (found.symm.trans there)
        exact not_not.mp fun new => nothing (presents new)
      · exact fun allowed new => absurd (allowed rfl user found) new
    · refine iff_of_true (fun _ => ⟨record, present, Or.inr ⟨auth, rfl, empty, ?_⟩⟩)
        fun same => absurd same empty
      rw [← has] at empty ⊢
      exact sound record (List.mem_of_getElem? present) empty

/-- An express login asks for the mail address of a user who is logged in, and for nothing else. -/
theorem authentic_expressLogin_iff (client : Client) (mail : String) (pass : Bytes) :
    s.Authentic (.expressLogin client mail pass) ↔ s.Allowed (.expressLogin client mail pass) := by
  simp only [Allowed]
  cases found : s.manager.getUserByEmail mail with
  | none =>
    have stepped : s.step (.expressLogin client mail pass) = s := by
      simp only [step, expressLogin, found]
    refine iff_of_true ?_ fun user there => by cases there
    apply authentic_of_kept
    rw [stepped]
    exact fun _ _ holds => holds
  | some user =>
    have bound : s.step (.expressLogin client mail pass) = s.setUser client user := by
      simp only [step, expressLogin, found]
    rw [authentic_iff_of_bound (congrArg mUser bound), bound,
      @presents_congr _ s (s.setUser client user) _ user rfl rfl]
    constructor
    · intro presents other there
      obtain rfl := Option.some_inj.mp there
      exact presents
    · exact fun presents => presents user rfl

theorem authentic_iff (sound : s.Sound) (input : Input Client) :
    s.Authentic input ↔ s.Allowed input := by
  cases input with
  | login client mail pass tokn => exact authentic_login_iff client mail pass tokn
  | silentLogin client auth => exact authentic_silentLogin_iff sound client auth
  | expressLogin client mail pass => exact authentic_expressLogin_iff client mail pass
  | getAuthToken client =>
    refine iff_of_true (authentic_of_kept ?_) trivial
    simp only [step, getAuthToken]
    split <;> exact fun _ _ holds => holds
  | logout client =>
    refine iff_of_true (authentic_of_kept ?_) trivial
    simp only [step, logout]
    split <;> exact fun _ _ holds => holds
  | disconnect client =>
    refine iff_of_true (authentic_of_kept ?_) trivial
    intro other user holds
    simp only [step] at holds
    -- Whoever goes has no user any more.
    by_cases same : other = client
    · subst same
      rw [Function.update_self] at holds
      cases holds
    · rwa [Function.update_of_ne same] at holds
  | apiLogout | store =>
    exact iff_of_true (authentic_of_kept fun _ _ holds => holds) trivial

/-! ### Runs -/

omit [DecidableEq Client] in
/-- Users that are the same, with the same tokens issued, are as sound as they were. -/
theorem Sound.of_objects (sound : s.Sound) {next : Authentication Client}
    (objects : next.manager.objects = s.manager.objects) (issued : next.issued = s.issued) :
    next.Sound := by
  unfold Sound
  rw [objects, issued]
  exact sound

/-- A user object that is made has no token. -/
theorem Sound.login (sound : s.Sound) (client : Client) (mail : String) (pass : Bytes) :
    (s.login client mail pass).Sound := by
  -- A login makes one object at most, and that one has no token.
  have objects : (s.login client mail pass).manager.objects = s.manager.objects ∨
      ∃ record : UserManager.User, record.mAuthToken = [] ∧
        (s.login client mail pass).manager.objects = s.manager.objects ++ [record] := by
    unfold Authentication.login
    rcases s.manager.login_cases mail pass with ⟨user, -, logs⟩ | ⟨record, -, bare, tried⟩
    · rw [logs]
      exact Or.inl rfl
    · rcases tried with ⟨-, logs⟩ | logs
      · rw [logs]
        exact Or.inr ⟨record, bare, rfl⟩
      · rw [logs]
        exact Or.inr ⟨record, bare, rfl⟩
  have issued : (s.login client mail pass).issued = s.issued := by
    unfold Authentication.login
    dsimp only
    split <;> rfl
  rcases objects with same | ⟨record, bare, made⟩
  · exact sound.of_objects same issued
  · unfold Sound
    rw [made, issued]
    intro other member has
    rcases List.mem_append.mp member with before | new
    · exact sound other before has
    · rw [List.mem_singleton.mp new] at has
      exact absurd bare has

omit [DecidableEq Client] in
/-- The token that a user gets is noted down as it is issued. -/
theorem Sound.getAuthToken (sound : s.Sound) (client : Client) : (s.getAuthToken client).Sound := by
  unfold Authentication.getAuthToken
  split
  · exact sound
  · rename_i user record found
    obtain ⟨other, -, same⟩ := Option.bind_eq_some_iff.mp found
    obtain ⟨record', present, both⟩ := Option.map_eq_some_iff.mp same
    cases both
    intro changed member has
    obtain ⟨place, there⟩ := List.mem_iff_getElem?.mp member
    simp only [UserManager.setAuthToken, List.getElem?_modify] at there
    obtain ⟨before, old, becomes⟩ := Option.map_eq_some_iff.mp there
    split at becomes
    · -- The user itself has the new token.
      rename_i same
      subst same
      obtain rfl := Option.some_inj.mp (present.symm.trans old)
      subst becomes
      exact List.mem_cons_self
    · subst becomes
      exact List.mem_cons_of_mem _ (sound before (List.mem_of_getElem? old) has)

omit [DecidableEq Client] in
theorem Sound.logoutUser (sound : s.Sound) (user : UserManager.UserPtr) :
    ({ s with manager := s.manager.logout user } : Authentication Client).Sound := by
  refine sound.of_objects ?_ rfl
  simp only [UserManager.logout]
  split <;> rfl

theorem Sound.step (sound : s.Sound) (input : Input Client) : (s.step input).Sound := by
  cases input with
  | login client mail pass tokn => exact sound.login client mail pass
  | silentLogin client auth =>
    simp only [Authentication.step, silentLogin]
    split <;> exact sound.of_objects rfl rfl
  | expressLogin client mail pass =>
    simp only [Authentication.step, expressLogin]
    split <;> exact sound.of_objects rfl rfl
  | getAuthToken client => exact sound.getAuthToken client
  | logout client =>
    simp only [Authentication.step, Authentication.logout]
    split
    · exact sound
    · exact sound.logoutUser _
  | disconnect client => exact sound.of_objects rfl rfl
  | apiLogout user => exact sound.logoutUser user
  | store mail stored => exact sound.of_objects rfl rfl

/--
Clients become bound only by a password or a token of the user, all along a run, exactly when every
login of a user that is logged in already presents one of them and no silent login comes without a
token while it finds a user of somebody else's that has none.
-/
theorem authentic_iff_allowed (inputs : List (Input Client)) :
    Along (fun s input => some (step s input)) Authentic initial inputs ↔
      Along (fun s input => some (step s input)) Allowed (initial : Authentication Client) inputs := by
  have kept : Kept (fun (s : Authentication Client) input => some (step s input)) Sound := by
    intro s input next sound taken
    obtain rfl := Option.some_inj.mp taken
    exact sound.step input
  refine kept.along_congr (fun s input sound => authentic_iff sound input) inputs ?_
  intro record member
  cases member

/-- One client logs in with the password, and another one is let in with a wrong one. -/
theorem not_authentic : ¬ ∀ inputs : List (Input Nat),
    Along (fun s input => some (step s input)) Authentic initial inputs := by
  intro always
  have along := always [.store "mail" (some ⟨[112], 7⟩), .login 0 "mail" [112] [],
    .login 1 "mail" [120] []]
  have second := (((along.2 _ rfl).2 _ rfl).1) 1 0 (by decide) (by decide)
  obtain ⟨record, found, presented⟩ := second
  -- The stored password is another one, and no token has been issued to anybody.
  have stored : record.mPassword = [112] := by
    have same : some record = some ⟨"mail", [112], 7, []⟩ := found.symm.trans (by decide)
    rw [Option.some_inj.mp same]
  rcases presented with password | ⟨token, -, -, issued⟩
  · rw [stored] at password
    exact absurd password (by decide)
  · cases issued

end Authentication

end Recap.Blaze
